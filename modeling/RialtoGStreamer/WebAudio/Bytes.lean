import Mathlib.Algebra.Ring.Nat
import RialtoGStreamer.WebAudio.Moves

/-!
# The bytes of the web-audio stream

What a step does to the bytes, and when an iteration of `pushSamples` keeps
them: the leftover is computed from the frames that were available, the offset
from the frames that were written.
-/

namespace RialtoGStreamer.WebAudio

open Library

variable {β : Type*}

/-! ## Arithmetic of an iteration -/

theorem toNat_framesToWrite (frameSize availableFrames : UInt32) (bufferSize : ℕ) :
    (framesToWrite frameSize availableFrames bufferSize).toNat =
      min availableFrames.toNat (bufferSize / frameSize.toNat % 2 ^ 32) := by
  change (if availableFrames ≤ UInt32.ofNat (bufferSize / frameSize.toNat) then _ else _
    : UInt32).toNat = _
  split
  · next h =>
      rw [UInt32.le_iff_toNat_le, UInt32.toNat_ofNat'] at h
      exact (Nat.min_eq_left h).symm
  · next h =>
      rw [UInt32.le_iff_toNat_le, UInt32.toNat_ofNat', Nat.not_le] at h
      rw [UInt32.toNat_ofNat']
      exact (Nat.min_eq_right (Nat.le_of_lt h)).symm

theorem toNat_leftoverData (frameSize availableFrames : UInt32) (bufferSize : ℕ) :
    (leftoverData frameSize availableFrames bufferSize).toNat =
      (bufferSize + 2 ^ 32 - availableFrames.toNat * frameSize.toNat % 2 ^ 32) % 2 ^ 32 := by
  rw [leftoverData, UInt64.toNat_toUInt32, UInt64.toNat_sub, UInt64.toNat_ofNat',
    UInt32.toNat_toUInt64, UInt32.toNat_mul]
  generalize availableFrames.toNat * frameSize.toNat = n
  omega

theorem framesToWrite_mul_le (frameSize availableFrames : UInt32) (bufferSize : ℕ) :
    (framesToWrite frameSize availableFrames bufferSize).toNat * frameSize.toNat ≤ bufferSize := by
  rw [toNat_framesToWrite]
  calc min availableFrames.toNat (bufferSize / frameSize.toNat % 2 ^ 32) * frameSize.toNat
      ≤ bufferSize / frameSize.toNat * frameSize.toNat :=
        Nat.mul_le_mul_right _ (Nat.le_trans (Nat.min_le_right _ _) (Nat.mod_le _ _))
    _ ≤ bufferSize := Nat.div_mul_le_self _ _

theorem framesToWrite_le (frameSize availableFrames : UInt32) (bufferSize : ℕ) :
    framesToWrite frameSize availableFrames bufferSize ≤ availableFrames := by
  rw [UInt32.le_iff_toNat_le, toNat_framesToWrite]
  exact Nat.min_le_left _ _

/-- When resizing to `leftover` bytes from `offset` on leaves what is behind the
`used` bytes in front. -/
theorem gstBufferResize_eq_drop_iff {buffer : List β} {used available : ℕ}
    (hused : used ≤ buffer.length) (havailable : used ≤ available)
    (hoffset : used % 2 ^ 32 < buffer.length) :
    gstBufferResize buffer (used % 2 ^ 32)
        ((buffer.length + 2 ^ 32 - available % 2 ^ 32) % 2 ^ 32) = buffer.drop used ↔
      (buffer.length - used < 2 ^ 32 ∧ 2 ^ 32 ∣ available - used ∧
        (buffer.drop (used % 2 ^ 32)).take (buffer.length - used) = buffer.drop used) ∨
      (used = 0 ∧ buffer.length < available % 2 ^ 32) := by
  unfold gstBufferResize
  constructor
  · intro h
    have hlength := congrArg List.length h
    rw [List.length_drop] at hlength
    split at h
    · next hin =>
        rw [if_pos hin, List.length_take, List.length_drop] at hlength
        refine .inl ⟨by omega, by omega, ?_⟩
        rw [← h]
        congr 1
        omega
    · next hout =>
        rw [if_neg hout] at hlength
        exact .inr ⟨by omega, by omega⟩
  · rintro (⟨hsmall, hdvd, hbytes⟩ | ⟨rfl, hlt⟩)
    · have hleft : (buffer.length + 2 ^ 32 - available % 2 ^ 32) % 2 ^ 32 =
          buffer.length - used := by omega
      rw [hleft, if_pos (by omega), hbytes]
    · rw [if_neg (by omega), List.drop_zero]

/-- The answer `availableFrames` suits the front buffer: the frames that fit use
it up, or the leftover behind them is the one computed from all the available
frames, or no frame fits and the computed leftover exceeds the buffer. The code
cuts the products and the leftover to 32 bits. -/
def Fits (frameSize availableFrames : UInt32) (buffer : List β) : Prop :=
  let available := availableFrames.toNat * frameSize.toNat
  let used := min availableFrames.toNat (buffer.length / frameSize.toNat % 2 ^ 32) * frameSize.toNat
  (used = buffer.length ∧ buffer.length < 2 ^ 32) ∨
    (buffer.length - used < 2 ^ 32 ∧ 2 ^ 32 ∣ available - used ∧
      (buffer.drop (used % 2 ^ 32)).take (buffer.length - used) = buffer.drop used) ∨
    (used = 0 ∧ buffer.length < available % 2 ^ 32)

/-- What is queued of the front buffer after the iteration. -/
def leftover (frameSize availableFrames : UInt32) (buffer : List β) : List β :=
  let frames := framesToWrite frameSize availableFrames buffer.length
  if (frames * frameSize).toNat < buffer.length then
    gstBufferResize buffer (frames * frameSize).toNat
      (leftoverData frameSize availableFrames buffer.length).toNat
  else []

theorem leftover_eq_drop_iff (frameSize availableFrames : UInt32) (buffer : List β) :
    leftover frameSize availableFrames buffer =
        buffer.drop ((framesToWrite frameSize availableFrames buffer.length).toNat *
          frameSize.toNat) ↔
      Fits frameSize availableFrames buffer := by
  have hused := framesToWrite_mul_le frameSize availableFrames buffer.length
  have havailable := Nat.mul_le_mul_right frameSize.toNat (UInt32.le_iff_toNat_le.mp
    (framesToWrite_le frameSize availableFrames buffer.length))
  unfold leftover Fits
  simp only [UInt32.toNat_mul, toNat_leftoverData, ← toNat_framesToWrite]
  generalize (framesToWrite frameSize availableFrames buffer.length).toNat * frameSize.toNat =
    used at hused havailable ⊢
  split
  · next hoffset =>
      rw [gstBufferResize_eq_drop_iff hused havailable hoffset]
      refine ⟨.inr, fun h ↦ h.resolve_left ?_⟩
      omega
  -- The whole buffer was written.
  · next hoffset =>
      have hwhole : used = buffer.length := by omega
      refine iff_of_true ?_ (.inl ⟨hwhole, by omega⟩)
      rw [hwhole, List.drop_length]

/-! ## The front buffer -/

theorem flatten_keepLeftover (s : State β) (availableFrames : UInt32) (buffer : List β)
    (rest : List (List β)) :
    (s.keepLeftover availableFrames buffer rest).flatten =
      gstBufferResize buffer
        (framesToWrite s.frameSize availableFrames buffer.length * s.frameSize).toNat
        (leftoverData s.frameSize availableFrames buffer.length).toNat ++ rest.flatten := by
  unfold State.keepLeftover
  cases rest with
  | nil => simp
  | cons next rest =>
      dsimp only
      split <;> simp

theorem flatten_process (s : State β) (availableFrames : UInt32) (buffer : List β)
    (rest : List (List β)) :
    (s.process availableFrames buffer rest true true).dataBuffers.flatten =
      leftover s.frameSize availableFrames buffer ++ rest.flatten := by
  simp only [State.process, leftover, Bool.true_eq_false, and_false, if_false]
  split
  · exact flatten_keepLeftover s availableFrames buffer rest
  · rfl

theorem written_process (s : State β) (availableFrames : UInt32) (buffer : List β)
    (rest : List (List β)) :
    (s.process availableFrames buffer rest true true).written =
      s.written ++ buffer.take
        ((framesToWrite s.frameSize availableFrames buffer.length).toNat * s.frameSize.toNat) := by
  simp only [State.process, State.written, Bool.true_eq_false, and_false, if_false]
  split
  · simp
  · next hzero =>
      rw [UInt32.not_lt, UInt32.le_zero_iff] at hzero
      simp [hzero]

theorem accepted_process (s : State β) (availableFrames : UInt32) (buffer : List β)
    (rest : List (List β)) (mapped written : Bool) :
    (s.process availableFrames buffer rest mapped written).accepted = s.accepted := by
  unfold State.process
  dsimp only
  split
  · rfl
  · split <;> rfl

/-! ## What a step does to the bytes -/

/-- Nothing happens to the bytes. -/
structure SameBytes (s t : State β) : Prop where
  writes : t.writes = s.writes
  dropped : t.dropped = s.dropped
  dataBuffers : t.dataBuffers = s.dataBuffers
  accepted : t.accepted = s.accepted

theorem SameBytes.written {s t : State β} (h : SameBytes s t) : t.written = s.written := by
  unfold State.written
  rw [h.writes]

/-- A step accepts a buffer, refuses the queue, or processes the front buffer. -/
inductive ByteMove (s : State β) : Event β → State β → Prop
  | same {e : Event β} {t : State β}
      (he : ∀ a mapped written, e = .iterate (some a) mapped written → a = 0)
      (h : SameBytes s t) : ByteMove s e t
  | accept (buf : List β) {t : State β}
      (h : SameBytes { s with
        dataBuffers := s.dataBuffers ++ [buf], accepted := s.accepted ++ buf } t) :
      ByteMove s (.notifyNewSample buf) t
  | refuse (mapped written : Bool) {t : State β}
      (h : SameBytes { s with
        dataBuffers := [], dropped := s.dropped ++ s.dataBuffers.flatten } t) :
      ByteMove s (.iterate none mapped written) t
  | process (availableFrames : UInt32) (mapped written : Bool) (buffer : List β)
      (rest : List (List β)) {t : State β} (hqueue : s.dataBuffers = buffer :: rest)
      (hframes : availableFrames ≠ 0)
      (h : SameBytes (s.process availableFrames buffer rest mapped written) t) :
      ByteMove s (.iterate (some availableFrames) mapped written) t

theorem sameBytes_pushSamples (s : State β) : SameBytes s s.pushSamples := by
  unfold State.pushSamples
  split <;> exact ⟨rfl, rfl, rfl, rfl⟩

theorem sameBytes_openWith (s : State β) (mimeType : String) (pcm : PcmConfig) (created : Bool) :
    SameBytes s (s.openWith mimeType pcm created) := by
  unfold State.openWith
  split
  · split <;> exact ⟨rfl, rfl, rfl, rfl⟩
  · exact ⟨rfl, rfl, rfl, rfl⟩

theorem sameBytes_setEos (s : State β) : SameBytes s s.setEos := by
  unfold State.setEos
  split
  · split
    · exact ⟨rfl, rfl, rfl, rfl⟩
    · split
      · exact ⟨rfl, rfl, rfl, rfl⟩
      · obtain ⟨hwrites, hdropped, hbuffers, haccepted⟩ :=
          sameBytes_pushSamples { s.deliverEos with isEos := true }
        exact ⟨hwrites, hdropped, hbuffers, haccepted⟩
  · exact ⟨rfl, rfl, rfl, rfl⟩

theorem sameBytes_finishPush (s : State β) : SameBytes s s.finishPush := by
  unfold State.finishPush
  split
  · split <;> exact ⟨rfl, rfl, rfl, rfl⟩
  · exact ⟨rfl, rfl, rfl, rfl⟩

theorem byteMove_of_step {s t : State β} {e : Event β} (h : s.step e = some t) :
    ByteMove s e t := by
  cases step_move h with
  | «open» mimeType pcm created => exact .same (by simp) (sameBytes_openWith s mimeType pcm created)
  | close | timerExpired | notifyEndOfStream => exact .same (by simp) ⟨rfl, rfl, rfl, rfl⟩
  | notifyNewSample buf =>
      obtain ⟨hwrites, hdropped, hbuffers, haccepted⟩ := sameBytes_pushSamples
        { s with
          timer := false, dataBuffers := s.dataBuffers ++ [buf]
          accepted := s.accepted ++ buf, ended := false }
      exact .accept buf ⟨hwrites, hdropped, hbuffers, haccepted⟩
  | setEos => exact .same (by simp) (sameBytes_setEos s)
  | notifyPushSamplesTimerExpired =>
      obtain ⟨hwrites, hdropped, hbuffers, haccepted⟩ :=
        sameBytes_pushSamples { s with scheduled := s.scheduled - 1 }
      exact .same (by simp) ⟨hwrites, hdropped, hbuffers, haccepted⟩
  | finishPush => exact .same (by simp) (sameBytes_finishPush s)
  | iterate available mapped written _ hmove =>
      cases hmove with
      | refused => exact .refuse mapped written ⟨rfl, rfl, rfl, rfl⟩
      | full =>
          refine .same ?_ ⟨rfl, rfl, rfl, rfl⟩
          rintro a _ _ ⟨⟩
          rfl
      | granted availableFrames buffer rest hframes _ hqueue =>
          exact .process availableFrames mapped written buffer rest hqueue hframes
            ⟨rfl, rfl, rfl, rfl⟩

/-! ## Preservation -/

/-- Written and queued bytes are the accepted ones, in order, and a write
consists of whole frames, no more than were available. -/
structure Preserved (s : State β) : Prop where
  bytes : s.written ++ s.dataBuffers.flatten = s.accepted
  frames : ∀ w ∈ s.writes, w.bytes.length = w.framesToWrite.toNat * w.frameSize.toNat ∧
    w.framesToWrite ≤ w.availableFrames

/-- `getBufferAvailable`, `gst_buffer_map` and `writeBuffer` succeed. -/
def Event.succeeds : Event β → Bool
  | .iterate available mapped written => available.isSome && mapped && written
  | _ => true

/-- The client in an environment where nothing fails. -/
def reliable (β : Type*) : Machine (State β) (Event β) :=
  (machine β).restrict fun _ e ↦ e.succeeds = true

/-- The answers suit the front buffers. -/
def Fitting (s : State β) : Event β → Prop
  | .iterate (some availableFrames) _ _ =>
      availableFrames ≠ 0 → ∀ buffer ∈ s.dataBuffers.head?, Fits s.frameSize availableFrames buffer
  | _ => True

theorem frames_of_byteMove {s t : State β} {e : Event β} (h : Preserved s)
    (hok : e.succeeds = true) (hm : ByteMove s e t) :
    ∀ w ∈ t.writes, w.bytes.length = w.framesToWrite.toNat * w.frameSize.toNat ∧
      w.framesToWrite ≤ w.availableFrames := by
  cases hm with
  | same _ hsame | accept _ hsame | refuse _ _ hsame =>
      rw [hsame.writes]
      exact h.frames
  | process availableFrames mapped written buffer rest _ _ hsame =>
      obtain ⟨rfl, rfl⟩ : mapped = true ∧ written = true := by
        simpa [Event.succeeds] using hok
      rw [hsame.writes]
      simp only [State.process, Bool.true_eq_false, and_false, if_false]
      split
      · intro w hw
        rcases List.mem_append.mp hw with hw | hw
        · exact h.frames w hw
        · obtain rfl := List.mem_singleton.mp hw
          refine ⟨?_, framesToWrite_le _ _ _⟩
          rw [List.length_take]
          exact Nat.min_eq_left (framesToWrite_mul_le _ _ _)
      · exact h.frames

theorem preserved_iff_of_byteMove {s t : State β} {e : Event β} (h : Preserved s)
    (hok : e.succeeds = true) (hm : ByteMove s e t) : Preserved t ↔ Fitting s e := by
  have hbytes : Preserved t ↔ t.written ++ t.dataBuffers.flatten = t.accepted :=
    ⟨fun ht ↦ ht.bytes, fun ht ↦ ⟨ht, frames_of_byteMove h hok hm⟩⟩
  rw [hbytes]
  cases hm with
  | same he hsame =>
      rw [hsame.written, hsame.dataBuffers, hsame.accepted]
      apply iff_of_true h.bytes
      unfold Fitting
      split
      · next availableFrames mapped written =>
          exact fun hne ↦ absurd (he availableFrames mapped written rfl) hne
      · trivial
  | accept buf hsame =>
      rw [hsame.written, hsame.dataBuffers, hsame.accepted]
      refine iff_of_true ?_ trivial
      change s.written ++ (s.dataBuffers ++ [buf]).flatten = s.accepted ++ buf
      rw [← h.bytes]
      simp
  | refuse mapped written hsame => simp [Event.succeeds] at hok
  | process availableFrames mapped written buffer rest hqueue hframes hsame =>
      obtain ⟨rfl, rfl⟩ : mapped = true ∧ written = true := by
        simpa [Event.succeeds] using hok
      have haccepted := hsame.accepted.trans (accepted_process s _ buffer rest true true)
      have hbefore := h.bytes
      rw [hqueue, List.flatten_cons] at hbefore
      rw [hsame.written, hsame.dataBuffers, haccepted, ← hbefore, written_process,
        flatten_process, List.append_assoc, List.append_cancel_left_eq, ← List.append_assoc,
        List.append_cancel_right_eq]
      simp only [Fitting, hqueue, List.head?_cons, Option.mem_some_iff, forall_eq', hframes,
        ne_eq, not_false_eq_true, true_implies]
      rw [← leftover_eq_drop_iff]
      generalize (framesToWrite s.frameSize availableFrames buffer.length).toNat *
        s.frameSize.toNat = used
      constructor
      · intro heq
        exact List.append_cancel_left (heq.trans (List.take_append_drop used buffer).symm)
      · intro heq
        rw [heq, List.take_append_drop]

/-! ## Runs -/

theorem preserved_start : Preserved ({} : State β) :=
  ⟨rfl, by simp⟩

/-- In a run where nothing fails the stream is preserved throughout exactly if
the answers suit the front buffers. -/
theorem always_preserved_iff {es : List (Event β)} {t : State β}
    (hrun : (reliable β).run {} es = some t) :
    (reliable β).Always Preserved {} es ↔ (reliable β).Meets Fitting {} es := by
  refine (reliable β).always_iff_meets (J := fun _ ↦ True) (fun _ _ _ _ _ _ _ ↦ trivial)
    (fun s e u _ h hstep ↦ ?_) trivial preserved_start hrun
  obtain ⟨hok, hstep⟩ := (machine β).restrict_step_eq_some_iff.mp hstep
  exact preserved_iff_of_byteMove h hok (byteMove_of_step hstep)

/-- Frames of four bytes: a frame and a half meets room for two frames. -/
def brokenFrame : List (Event ℕ) :=
  [.open "audio/x-raw" { channels := 2, sampleSize := 16 } true,
    .notifyNewSample [0, 1, 2, 3, 4, 5], .iterate (some 2) true true]

theorem brokenFrame_run : ∃ s, (reliable ℕ).run {} brokenFrame = some s ∧
    s.written = [0, 1, 2, 3] ∧ s.dataBuffers = [[0, 1, 2, 3, 4, 5]] ∧
      s.accepted = [0, 1, 2, 3, 4, 5] :=
  ⟨_, rfl, rfl, rfl, rfl⟩

theorem always_preserved_iff_brokenFrame : ¬(reliable ℕ).Meets Fitting {} brokenFrame := by
  intro hmeets
  obtain ⟨s, hs, hwritten, hqueue, haccepted⟩ := brokenFrame_run
  have hpreserved := ((always_preserved_iff hs).mpr hmeets).last (reliable ℕ) hs
  have hbytes := hpreserved.bytes
  rw [hwritten, hqueue, haccepted] at hbytes
  exact absurd hbytes (by decide)

theorem broken_stream_reachable : ¬∀ (es : List (Event ℕ)) (s : State ℕ),
    (reliable ℕ).run {} es = some s → Preserved s := by
  intro h
  obtain ⟨s, hs, hwritten, hqueue, haccepted⟩ := brokenFrame_run
  have hbytes := (h brokenFrame s hs).bytes
  rw [hwritten, hqueue, haccepted] at hbytes
  exact absurd hbytes (by decide)

end RialtoGStreamer.WebAudio
