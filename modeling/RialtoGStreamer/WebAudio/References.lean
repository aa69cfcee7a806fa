import RialtoGStreamer.Library.Ledger
import RialtoGStreamer.WebAudio.Bytes

/-!
# References to the buffers of the web-audio client

The queue holds pointers. `notifyNewSample` takes over the caller's reference,
`gst_buffer_unref` gives one up, and `gst_buffer_append` consumes a reference to
each of its arguments and returns a reference to the joined buffer, which is the
first argument itself when nobody else holds one to it.
-/

namespace RialtoGStreamer.WebAudio

open Library

variable {β : Type*}

/-- What an event does to the front of the queue: an iteration discards the
front buffer, joins it to the next one, or clears the queue. -/
inductive Fate where
  | keep
  | discard
  | join
  | clear
  deriving DecidableEq

/-- The branch that an iteration takes. -/
def State.fate (s : State β) : Event β → Fate
  | .iterate none _ _ => .clear
  | .iterate (some availableFrames) mapped written =>
      match s.dataBuffers with
      | [] => .keep
      | buffer :: rest =>
          let frames := framesToWrite s.frameSize availableFrames buffer.length
          let leftover := leftoverData s.frameSize availableFrames buffer.length
          if availableFrames = 0 then .keep
          else if frames > 0 ∧ (mapped = false ∨ written = false) then .discard
          else if (frames * s.frameSize).toNat < buffer.length then
            if leftover / s.frameSize = 0 ∧ rest ≠ [] then .join else .keep
          else .discard
  | _ => .keep

/-- An event of the client. `pointer` is the received buffer, or the one that
`gst_buffer_append` returns; `shared` says that somebody else holds a reference
to the front buffer. -/
structure BufferEvent (β : Type*) where
  event : Event β
  pointer : ℕ := 0
  shared : Bool := false

/-- The client, the pointers in its queue, and its references. -/
structure References (β : Type*) where
  client : State β := {}
  pointers : List ℕ := []
  ledger : Ledger ℕ := {}

namespace References

/-- The joined buffer is the first one if that is uniquely owned, and a new one
otherwise. -/
def returns (s : References β) (buffer : ℕ) (e : BufferEvent β) : Bool :=
  if e.shared = false ∧ s.ledger.owned.count buffer = 1 then e.pointer = buffer
  else e.pointer ∉ s.ledger.gained

/-- `gst_buffer_append(buffer, next)` and `gst_buffer_unref(buffer)`. -/
def append (ledger : Ledger ℕ) (buffer next combined : ℕ) : Ledger ℕ :=
  (((ledger.release buffer).release next).gain combined).release buffer

/-- The pointers and the references after an event. -/
def account (s : References β) (e : BufferEvent β) : Option (List ℕ × Ledger ℕ) :=
  match e.event with
  | .notifyNewSample _ => some (s.pointers ++ [e.pointer], s.ledger.gain e.pointer)
  | event =>
      match s.client.fate event, s.pointers with
      | .keep, pointers => some (pointers, s.ledger)
      | .clear, _ => some ([], s.ledger)
      | .discard, buffer :: rest => some (rest, s.ledger.release buffer)
      | .join, buffer :: next :: rest =>
          if s.returns buffer e then
            some (e.pointer :: rest, append s.ledger buffer next e.pointer)
          else none
      | _, _ => none

def step (s : References β) (e : BufferEvent β) : Option (References β) :=
  (s.client.step e.event).bind fun client ↦
    (s.account e).map fun after ↦ { client, pointers := after.1, ledger := after.2 }

end References

def references (β : Type*) : Machine (References β) (BufferEvent β) where
  step := References.step

/-- Every queued buffer is backed by one reference of the client, which released
no reference that it did not own, and each one that it accepted and that is not
queued exactly once. -/
structure Balanced (s : References β) : Prop where
  queued : s.pointers.length = s.client.dataBuffers.length
  backed : s.ledger.owned.Perm s.pointers
  safe : s.ledger.unowned = []
  settled : s.ledger.gained.Perm (s.pointers ++ s.ledger.released)

/-- The queue is not cleared, and no leftover is joined to the next buffer. -/
def Separate (s : References β) (e : BufferEvent β) : Prop :=
  s.client.fate e.event ≠ .clear ∧ s.client.fate e.event ≠ .join

theorem balanced_iff {s : References β} :
    Balanced s ↔ s.pointers.length = s.client.dataBuffers.length ∧ s.ledger.Owns s.pointers := by
  constructor
  · intro h
    exact ⟨h.queued, h.backed, h.safe⟩
  · rintro ⟨hqueued, h⟩
    exact ⟨hqueued, h.owned, h.unowned, h.settled⟩

/-! ## The length of the queue -/

theorem length_keepLeftover (s : State β) (availableFrames : UInt32) (buffer : List β)
    (rest : List (List β)) :
    (s.keepLeftover availableFrames buffer rest).length =
      if leftoverData s.frameSize availableFrames buffer.length / s.frameSize = 0 ∧ rest ≠ [] then
        rest.length
      else rest.length + 1 := by
  unfold State.keepLeftover
  cases rest with
  | nil => simp
  | cons next rest =>
      by_cases hpart : leftoverData s.frameSize availableFrames buffer.length / s.frameSize = 0
      · simp [hpart]
      · simp [hpart]

theorem length_process {s : State β} {availableFrames : UInt32} {buffer : List β}
    {rest : List (List β)} {mapped written : Bool} (hqueue : s.dataBuffers = buffer :: rest)
    (hframes : availableFrames ≠ 0) :
    (s.process availableFrames buffer rest mapped written).dataBuffers.length =
      if s.fate (.iterate (some availableFrames) mapped written) = .keep then rest.length + 1
      else rest.length := by
  simp only [State.fate, hqueue]
  rw [if_neg hframes]
  by_cases hfail : framesToWrite s.frameSize availableFrames buffer.length > 0 ∧
      (mapped = false ∨ written = false)
  · rw [if_pos hfail]
    obtain ⟨hpos, hmapped | hwritten⟩ := hfail
    · simp [State.process, hpos, hmapped]
    · by_cases hmapped : mapped = false
      · simp [State.process, hpos, hmapped]
      · simp [State.process, hpos, hmapped, hwritten]
  · rw [if_neg hfail]
    have hmapped : ¬(framesToWrite s.frameSize availableFrames buffer.length > 0 ∧
        mapped = false) := fun h ↦ hfail ⟨h.1, .inl h.2⟩
    have hwritten : ¬(framesToWrite s.frameSize availableFrames buffer.length > 0 ∧
        written = false) := fun h ↦ hfail ⟨h.1, .inr h.2⟩
    simp only [State.process]
    rw [if_neg hmapped, if_neg hwritten]
    dsimp only
    split
    · rw [length_keepLeftover]
      split <;> rfl
    · rfl

theorem length_of_step {s t : State β} {e : Event β} (hstep : s.step e = some t)
    (hclear : s.fate e ≠ .clear) :
    (∃ buf, e = .notifyNewSample buf ∧ t.dataBuffers.length = s.dataBuffers.length + 1) ∨
      (∀ buf, e ≠ .notifyNewSample buf) ∧
        (s.fate e = .keep ∧ t.dataBuffers.length = s.dataBuffers.length ∨
          s.fate e ≠ .keep ∧ t.dataBuffers.length + 1 = s.dataBuffers.length) := by
  cases byteMove_of_step hstep with
  | same he hbytes =>
      cases e with
      | notifyNewSample buf =>
          refine .inl ⟨buf, rfl, ?_⟩
          simp only [State.step] at hstep
          split at hstep <;> cases hstep
          unfold State.notifyNewSample
          rw [(sameBytes_pushSamples _).dataBuffers]
          simp
      | iterate available mapped written =>
          refine .inr ⟨by simp, .inl ⟨?_, by rw [hbytes.dataBuffers]⟩⟩
          cases available with
          | none => exact absurd rfl hclear
          | some availableFrames =>
              simp only [State.fate]
              split
              · rfl
              · rw [if_pos (he availableFrames mapped written rfl)]
      | _ => exact .inr ⟨by simp, .inl ⟨rfl, by rw [hbytes.dataBuffers]⟩⟩
  | accept buf hbytes =>
      refine .inl ⟨buf, rfl, ?_⟩
      rw [hbytes.dataBuffers]
      simp
  | refuse mapped written hbytes => exact absurd rfl hclear
  | process availableFrames mapped written buffer rest hqueue hframes hbytes =>
      refine .inr ⟨by simp, ?_⟩
      rw [hbytes.dataBuffers, length_process hqueue hframes, hqueue]
      split
      · next hkeep => exact .inl ⟨hkeep, rfl⟩
      · next hkeep => exact .inr ⟨hkeep, rfl⟩

/-! ## One step -/

theorem dataBuffers_ne_nil_of_clear {s t : State β} {e : Event β} (hstep : s.step e = some t)
    (hclear : s.fate e = .clear) : s.dataBuffers ≠ [] := by
  cases step_move hstep with
  | iterate available mapped written _ hmove =>
      cases hmove with
      | refused hqueue | full hqueue => exact hqueue
      | granted _ _ _ _ _ hqueue => simp [hqueue]
  | _ => cases hclear

theorem balanced_iff_of_step {s t : References β} {e : BufferEvent β} (h : Balanced s)
    (hstep : s.step e = some t) : Balanced t ↔ Separate s e := by
  rw [balanced_iff] at h ⊢
  obtain ⟨hqueued, howns⟩ := h
  obtain ⟨client, hclient, hstep⟩ := Option.bind_eq_some_iff.mp hstep
  obtain ⟨⟨pointers, ledger⟩, haccount, rfl⟩ := Option.map_eq_some_iff.mp hstep
  have hlength := length_of_step hclient
  unfold Separate
  unfold References.account at haccount
  split at haccount
  -- A sample is received.
  · next buf hevent =>
      cases haccount
      rw [hevent] at hlength ⊢
      have hqueue : client.dataBuffers.length = s.client.dataBuffers.length + 1 := by
        rcases hlength (by simp [State.fate]) with ⟨_, -, h⟩ | ⟨h, -⟩
        · exact h
        · exact absurd rfl (h buf)
      refine iff_of_true ⟨by simp [hqueue, hqueued], ?_⟩ (by simp [State.fate])
      exact (howns.gain e.pointer).perm (List.perm_append_singleton e.pointer s.pointers).symm
  · next hother =>
      split at haccount
      · next pointers' hfate =>
          cases haccount
          refine iff_of_true ⟨?_, howns⟩ (by simp [hfate])
          rcases hlength (by simp [hfate]) with ⟨buf, h, -⟩ | ⟨-, h | h⟩
          · exact absurd h (hother buf)
          · exact hqueued.trans h.2.symm
          · exact absurd hfate h.1
      · next pointers' hfate =>
          cases haccount
          refine iff_of_false (fun h ↦ ?_) (by simp [hfate])
          have hne := List.length_pos_iff.mpr (dataBuffers_ne_nil_of_clear hclient hfate)
          exact howns.not_shorter (by simpa [hqueued] using hne) h.2
      · next buffer rest hfate hpointers =>
          cases haccount
          rw [hpointers] at hqueued howns
          refine iff_of_true ⟨?_, howns.release⟩ (by simp [hfate])
          rcases hlength (by simp [hfate]) with ⟨buf, h, -⟩ | ⟨-, h | h⟩
          · exact absurd h (hother buf)
          · simp [hfate] at h
          · have hshort := h.2
            simp only [List.length_cons] at hqueued
            dsimp only
            omega
      -- The reference to the first buffer has been consumed when it is released.
      · next buffer behind rest hfate hpointers =>
          split at haccount <;> cases haccount
          rw [hpointers] at howns
          refine iff_of_false (fun h ↦ ?_) (by simp [hfate])
          exact (howns.release.release.gain e.pointer).not_release buffer h.2
      · cases haccount

/-! ## Runs -/

theorem balanced_start : Balanced ({} : References β) :=
  ⟨rfl, .nil, rfl, .nil⟩

/-- The references balance throughout a run exactly if the queue is never cleared
and no leftover is ever joined to the next buffer. -/
theorem always_balanced_iff {es : List (BufferEvent β)} {t : References β}
    (hrun : (references β).run {} es = some t) :
    (references β).Always Balanced {} es ↔ (references β).Meets Separate {} es :=
  (references β).always_iff_meets (J := fun _ ↦ True) (fun _ _ _ _ _ _ _ ↦ trivial)
    (fun _ _ _ _ h hstep ↦ balanced_iff_of_step h hstep) trivial balanced_start hrun

/-- Frames of four bytes: half a frame is left of the first buffer when the
second one is behind it. Nobody else holds a reference to the first buffer. -/
def halfFrame : List (BufferEvent ℕ) :=
  [⟨.open "audio/x-raw" { channels := 2, sampleSize := 16 } true, 0, false⟩,
    ⟨.notifyNewSample [0, 1, 2, 3, 4, 5], 1, false⟩, ⟨.iterate (some 0) true true, 0, false⟩,
    ⟨.finishPush, 0, false⟩, ⟨.notifyNewSample [6, 7], 2, false⟩,
    ⟨.iterate (some 1) true true, 1, false⟩]

theorem halfFrame_run : ∃ s, (references ℕ).run {} halfFrame = some s ∧
    s.pointers = [1] ∧ s.ledger.owned = [] :=
  ⟨_, rfl, rfl, rfl⟩

theorem always_balanced_iff_halfFrame : ¬(references ℕ).Meets Separate {} halfFrame := by
  intro hmeets
  obtain ⟨s, hs, hpointers, howned⟩ := halfFrame_run
  have hbacked := (((always_balanced_iff hs).mpr hmeets).last (references ℕ) hs).backed
  rw [hpointers, howned] at hbacked
  exact absurd hbacked.length_eq (by decide)

theorem unbacked_buffer_reachable : ¬∀ (es : List (BufferEvent ℕ)) (s : References ℕ),
    (references ℕ).run {} es = some s → Balanced s := by
  intro h
  obtain ⟨s, hs, hpointers, howned⟩ := halfFrame_run
  have hbacked := (h halfFrame s hs).backed
  rw [hpointers, howned] at hbacked
  exact absurd hbacked.length_eq (by decide)

end RialtoGStreamer.WebAudio
