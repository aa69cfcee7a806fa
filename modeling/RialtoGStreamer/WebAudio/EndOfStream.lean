import RialtoGStreamer.WebAudio.Bytes

/-!
# The end of the web-audio stream

`m_isEos` is set by an EOS event, consulted behind the loop of `pushSamples` and
cleared when the server notifies the end of the stream. It belongs to the
client, not to the player, and survives a call of the backend's `setEos`.
-/

namespace RialtoGStreamer.WebAudio

open Library

variable {β : Type*}

/-- A call of the backend's `setEos` answers an EOS event that no earlier call
answered, once all that was accepted before the event is settled. An EOS that no
call answered is remembered, behind queued data or in the middle of a push. An
EOS after a call, with nothing accepted in between, counts as answered. -/
structure Protocol (s : State β) : Prop where
  calls : ∀ c ∈ s.eosCalls, c.earlier < c.delivered ∧ ∀ x ∈ c.before, x ∈ c.settled
  pending : s.unforwarded = true → s.isEos = true ∧ (s.dataBuffers ≠ [] ∨ s.worker ≠ .idle)

/-- The range to which the front buffer is resized reaches its end. -/
def Reaches (frameSize availableFrames : UInt32) (bufferSize : ℕ) : Prop :=
  let available := availableFrames.toNat * frameSize.toNat
  let used := min availableFrames.toNat (bufferSize / frameSize.toNat % 2 ^ 32) * frameSize.toNat
  bufferSize ≤ used % 2 ^ 32 + (bufferSize + 2 ^ 32 - available % 2 ^ 32) % 2 ^ 32

/-- No EOS meets the flag of an earlier player over an empty queue, no push ends
with the flag set but no EOS to forward, the server does not notify the end of
the stream before a pending EOS is forwarded, and no bytes get lost. -/
def Steady (s : State β) : Event β → Prop
  | .setEos => s.isOpen = true → s.isEos = true → s.dataBuffers = [] → s.ended = true
  | .finishPush => s.dataBuffers = [] → s.isEos = true → s.unforwarded = true
  | .notifyEndOfStream => s.unforwarded = false
  | .iterate (some availableFrames) mapped _ =>
      availableFrames ≠ 0 → mapped = true ∧
        ∀ buffer ∈ s.dataBuffers.head?, Reaches s.frameSize availableFrames buffer.length
  | _ => True

/-! ## No byte is lost -/

theorem mem_leftover {frameSize availableFrames : UInt32} {buffer : List β}
    (h : Reaches frameSize availableFrames buffer.length) {x : β} (hx : x ∈ buffer) :
    x ∈ buffer.take ((framesToWrite frameSize availableFrames buffer.length).toNat *
        frameSize.toNat) ∨ x ∈ leftover frameSize availableFrames buffer := by
  have hused := framesToWrite_mul_le frameSize availableFrames buffer.length
  unfold Reaches at h
  unfold leftover
  simp only [UInt32.toNat_mul, toNat_leftoverData, ← toNat_framesToWrite] at h ⊢
  generalize (framesToWrite frameSize availableFrames buffer.length).toNat * frameSize.toNat =
    used at hused h ⊢
  split
  · next hoffset =>
      unfold gstBufferResize
      split
      · next hin =>
          have hsize : (buffer.length + 2 ^ 32 - availableFrames.toNat * frameSize.toNat % 2 ^ 32) %
              2 ^ 32 = (buffer.drop (used % 2 ^ 32)).length := by
            rw [List.length_drop]
            omega
          rw [hsize, List.take_length]
          rw [← List.take_append_drop used buffer, List.mem_append] at hx
          apply hx.imp_right
          intro hdrop
          exact (List.drop_sublist_drop_left buffer (Nat.mod_le used _)).subset hdrop
      · exact .inr hx
  · next hoffset =>
      rw [List.take_of_length_le (by omega)]
      exact .inl hx

/-- Every accepted byte is settled or still queued. -/
def Accounted (s : State β) : Prop :=
  ∀ x ∈ s.accepted, x ∈ s.written ++ s.dropped ∨ x ∈ s.dataBuffers.flatten

theorem accounted_process {s : State β} {availableFrames : UInt32} {buffer : List β}
    {rest : List (List β)} (h : Accounted s) (hqueue : s.dataBuffers = buffer :: rest)
    (hreach : Reaches s.frameSize availableFrames buffer.length) (written : Bool) :
    Accounted (s.process availableFrames buffer rest true written) := by
  intro x hx
  rw [accepted_process] at hx
  have hold := h x hx
  rw [hqueue, List.flatten_cons, List.mem_append, List.mem_append] at hold
  by_cases hrefused : framesToWrite s.frameSize availableFrames buffer.length > 0 ∧ written = false
  · have hprocess : s.process availableFrames buffer rest true written =
        { s with dataBuffers := rest, dropped := s.dropped ++ buffer } := by
      simp only [State.process, Bool.true_eq_false, and_false, if_false]
      rw [if_pos hrefused]
    rw [hprocess]
    change x ∈ s.written ++ (s.dropped ++ buffer) ∨ x ∈ rest.flatten
    simp only [List.mem_append]
    tauto
  · have hprocess : s.process availableFrames buffer rest true written =
        s.process availableFrames buffer rest true true := by
      simp only [State.process, Bool.true_eq_false, and_false, if_false]
      rw [if_neg hrefused]
    have hdropped : (s.process availableFrames buffer rest true true).dropped = s.dropped := by
      simp [State.process]
    rw [hprocess, written_process, flatten_process, hdropped]
    have hfront := @mem_leftover β s.frameSize availableFrames buffer hreach x
    simp only [List.mem_append]
    tauto

theorem accounted_of_byteMove {s t : State β} {e : Event β} (h : Accounted s) (hc : Steady s e)
    (hm : ByteMove s e t) : Accounted t := by
  have hsame : ∀ {s' : State β}, Accounted s' → SameBytes s' t → Accounted t := by
    intro s' h' hbytes x hx
    rw [hbytes.accepted] at hx
    rw [hbytes.written, hbytes.dropped, hbytes.dataBuffers]
    exact h' x hx
  cases hm with
  | same _ hbytes => exact hsame h hbytes
  | accept buf hbytes =>
      refine hsame (fun x hx ↦ ?_) hbytes
      change x ∈ s.written ++ s.dropped ∨ x ∈ (s.dataBuffers ++ [buf]).flatten
      rw [List.flatten_append, List.mem_append (s := s.dataBuffers.flatten)]
      rcases List.mem_append.mp hx with hx | hx
      · exact (h x hx).imp_right .inl
      · exact .inr (.inr (by simpa using hx))
  | refuse _ _ hbytes =>
      refine hsame (fun x hx ↦ ?_) hbytes
      change x ∈ s.written ++ (s.dropped ++ s.dataBuffers.flatten) ∨ x ∈ [].flatten
      rw [← List.append_assoc, List.mem_append (s := s.written ++ s.dropped)]
      exact .inl (h x hx)
  | process availableFrames mapped written buffer rest hqueue hframes hbytes =>
      obtain ⟨rfl, hreach⟩ := hc hframes
      exact hsame (accounted_process h hqueue (hreach buffer (by simp [hqueue])) written) hbytes

theorem ByteMove.accepted_subset {s t : State β} {e : Event β} (h : ByteMove s e t) :
    s.accepted ⊆ t.accepted := by
  cases h with
  | same _ hbytes | refuse _ _ hbytes =>
      rw [hbytes.accepted]
      exact fun _ hx ↦ hx
  | accept buf hbytes =>
      rw [hbytes.accepted]
      exact List.subset_append_left _ _
  | process availableFrames mapped written buffer rest _ _ hbytes =>
      rw [hbytes.accepted, accepted_process]
      exact fun _ hx ↦ hx

/-! ## The EOS events of a player -/

/-- What is known of the EOS events of the present player and of the calls. -/
structure Answered (s : State β) : Prop where
  counted : s.eosCount + (if s.unforwarded then 1 else 0) ≤ s.delivered
  past : s.before ⊆ s.accepted
  accounted : Accounted s
  protocol : Protocol s

theorem answered_newPlayer {s t : State β} (h : Answered s) (haccounted : Accounted t)
    (hplayer : (t.eosCount, t.unforwarded, t.before) = (0, false, []))
    (hcalls : t.eosCalls = s.eosCalls) : Answered t := by
  simp only [Prod.mk.injEq] at hplayer
  obtain ⟨hcount, hforward, hbefore⟩ := hplayer
  refine ⟨?_, ?_, haccounted, ?_, ?_⟩
  · simp [hcount, hforward]
  · simp [hbefore]
  · rw [hcalls]
    exact h.protocol.calls
  · simp [hforward]

/-- A step that leaves the EOS events alone. -/
structure SameEos (s t : State β) : Prop where
  isEos : t.isEos = s.isEos
  delivered : t.delivered = s.delivered
  before : t.before = s.before
  eosCount : t.eosCount = s.eosCount
  unforwarded : t.unforwarded = s.unforwarded
  eosCalls : t.eosCalls = s.eosCalls

theorem Answered.of_sameEos {s t : State β} (hs : Answered s) (h : SameEos s t)
    (hgrow : s.accepted ⊆ t.accepted) (haccounted : Accounted t)
    (hbusy : t.dataBuffers ≠ [] ∨ t.worker ≠ .idle ∨
      (t.dataBuffers = s.dataBuffers ∧ t.worker = s.worker)) : Answered t := by
  refine ⟨?_, ?_, haccounted, ?_, fun hforward ↦ ?_⟩
  · rw [h.eosCount, h.unforwarded, h.delivered]
    exact hs.counted
  · rw [h.before]
    exact fun x hx ↦ hgrow (hs.past hx)
  · rw [h.eosCalls]
    exact hs.protocol.calls
  · rw [h.unforwarded] at hforward
    obtain ⟨hset, hplace⟩ := hs.protocol.pending hforward
    refine ⟨h.isEos.trans hset, ?_⟩
    rcases hbusy with hqueue | hworker | ⟨hqueue, hworker⟩
    · exact .inl hqueue
    · exact .inr hworker
    · rwa [hqueue, hworker]

/-- A call behind the EOS of the last event, over an empty queue. -/
theorem answered_callSetEos {s : State β} (hcount : s.eosCount < s.delivered)
    (hpast : s.before ⊆ s.accepted) (haccounted : Accounted s)
    (hcalls : ∀ c ∈ s.eosCalls, c.earlier < c.delivered ∧ ∀ x ∈ c.before, x ∈ c.settled)
    (hempty : s.dataBuffers = []) : Answered s.callSetEos := by
  refine ⟨?_, hpast, haccounted, ?_, ?_⟩
  · exact hcount
  · intro c hc
    rcases List.mem_append.mp hc with hc | hc
    · exact hcalls c hc
    · obtain rfl := List.mem_singleton.mp hc
      refine ⟨hcount, fun x hx ↦ (haccounted x (hpast hx)).resolve_right ?_⟩
      simp [hempty]
  · rintro ⟨⟩

theorem answered_setEos {s : State β} (h : Answered s) (hc : Steady s .setEos)
    (hworker : s.worker = .idle) : Answered s.setEos := by
  have hcounted := h.counted
  have hle : s.eosCount ≤ s.delivered := by omega
  unfold State.setEos
  split
  · next hopen =>
      split
      · next hset =>
          refine ⟨?_, fun x hx ↦ hx, h.accounted, h.protocol.calls, fun hforward ↦ ⟨hset, .inl ?_⟩⟩
          · change s.eosCount + _ ≤ s.delivered + 1
            split <;> omega
          · simp only [State.deliverEos, Bool.or_eq_true, Bool.not_eq_true'] at hforward
            rcases hforward with hforward | hended
            · exact (h.protocol.pending hforward).2.resolve_right (by simp [hworker])
            · intro hempty
              rw [hc hopen hset hempty] at hended
              cases hended
      · split
        · next hempty =>
            exact answered_callSetEos (Nat.lt_succ_of_le hle) (fun x hx ↦ hx) h.accounted
              h.protocol.calls (List.isEmpty_iff.mp hempty)
        · next hqueue =>
            have hne : s.dataBuffers ≠ [] := fun hempty ↦ hqueue (by simp [hempty])
            have hpush : ({ s.deliverEos with isEos := true } : State β).pushSamples =
                { s.deliverEos with isEos := true, worker := .pushing } := by
              simp [State.pushSamples, State.deliverEos, hopen, hne]
            rw [hpush]
            refine ⟨?_, fun x hx ↦ hx, h.accounted, h.protocol.calls, fun _ ↦ ⟨rfl, .inl hne⟩⟩
            change s.eosCount + _ ≤ s.delivered + 1
            split <;> omega
  · exact h

theorem answered_finishPush {s : State β} (h : Answered s) (hc : Steady s .finishPush) :
    Answered s.finishPush := by
  have hcounted := h.counted
  unfold State.finishPush
  split
  · next hempty =>
      rw [List.isEmpty_iff] at hempty
      split
      · next hset =>
          rw [if_pos (hc hempty hset)] at hcounted
          exact answered_callSetEos hcounted h.past h.accounted h.protocol.calls hempty
      · next hclear =>
          refine ⟨hcounted, h.past, h.accounted, h.protocol.calls, fun hforward ↦ ?_⟩
          exact absurd (h.protocol.pending hforward).1 hclear
  · next hqueue =>
      have hne : s.dataBuffers ≠ [] := fun hempty ↦ hqueue (by simp [hempty])
      exact ⟨hcounted, h.past, h.accounted, h.protocol.calls,
        fun hforward ↦ ⟨(h.protocol.pending hforward).1, .inl hne⟩⟩

theorem answered_of_step {s t : State β} {e : Event β} (h : Answered s) (hc : Steady s e)
    (hstep : s.step e = some t) : Answered t := by
  have haccounted := accounted_of_byteMove h.accounted hc (byteMove_of_step hstep)
  have hgrow := (byteMove_of_step hstep).accepted_subset
  cases step_move hstep with
  | «open» mimeType pcm created =>
      unfold State.openWith at haccounted ⊢
      by_cases hnew : (!s.isOpen || s.isNewConfig mimeType pcm) = true
      · rw [if_pos hnew] at haccounted ⊢
        refine answered_newPlayer h haccounted ?_ ?_ <;> cases created <;> rfl
      · rw [if_neg hnew]
        exact h
  | close => exact answered_newPlayer h haccounted rfl rfl
  | notifyNewSample buf =>
      unfold State.notifyNewSample State.pushSamples at haccounted hgrow ⊢
      split at haccounted
      · next hskip =>
          rw [if_pos hskip] at hgrow ⊢
          exact h.of_sameEos ⟨rfl, rfl, rfl, rfl, rfl, rfl⟩ hgrow haccounted (.inl (by simp))
      · next hpush =>
          rw [if_neg hpush] at hgrow ⊢
          exact h.of_sameEos ⟨rfl, rfl, rfl, rfl, rfl, rfl⟩ hgrow haccounted (.inl (by simp))
  | setEos hworker => exact answered_setEos h hc hworker
  | timerExpired =>
      exact h.of_sameEos ⟨rfl, rfl, rfl, rfl, rfl, rfl⟩ hgrow haccounted (.inr (.inr ⟨rfl, rfl⟩))
  | notifyPushSamplesTimerExpired =>
      unfold State.pushSamples at haccounted hgrow ⊢
      split at haccounted
      · next hskip =>
          rw [if_pos hskip] at hgrow ⊢
          exact h.of_sameEos ⟨rfl, rfl, rfl, rfl, rfl, rfl⟩ hgrow haccounted
            (.inr (.inr ⟨rfl, rfl⟩))
      · next hpush =>
          rw [if_neg hpush] at hgrow ⊢
          exact h.of_sameEos ⟨rfl, rfl, rfl, rfl, rfl, rfl⟩ hgrow haccounted
            (.inr (.inl (by simp)))
  | iterate available mapped written _ hmove =>
      obtain ⟨hbusy, _, _, _, _, rfl⟩ := hmove.frame
      exact h.of_sameEos ⟨rfl, rfl, rfl, rfl, rfl, rfl⟩ hgrow haccounted (.inr (.inl hbusy))
  | finishPush => exact answered_finishPush h hc
  | notifyEndOfStream =>
      refine ⟨h.counted, h.past, haccounted, h.protocol.calls, fun hforward ↦ ?_⟩
      exact absurd (hforward.symm.trans hc) (by simp)

/-! ## Runs -/

theorem answered_start : Answered ({} : State β) :=
  ⟨by simp, by simp, by simp [Accounted], by simp, by simp⟩

/-- The protocol is kept throughout a run whose steps are all steady. -/
theorem always_protocol {es : List (Event β)} (hc : (machine β).Meets Steady {} es) :
    (machine β).Always Protocol {} es :=
  (machine β).always_of_meets (fun _ _ _ h hc hstep ↦ answered_of_step h hc hstep)
    (fun _ h ↦ h.protocol) answered_start hc

/-- One frame of four bytes, an EOS, and the notification of the server. -/
def playToTheEnd : List (Event ℕ) :=
  [.open "audio/x-raw" { channels := 2, sampleSize := 16 } true, .notifyNewSample [0, 1, 2, 3],
    .iterate (some 0) true true, .finishPush, .setEos, .iterate (some 1) true true, .finishPush,
    .notifyEndOfStream]

theorem always_protocol_playToTheEnd :
    ((machine ℕ).run {} playToTheEnd).isSome = true ∧
      (machine ℕ).Always Protocol {} playToTheEnd := by
  refine ⟨rfl, always_protocol ?_⟩
  refine ((machine ℕ).meets_cons_iff rfl).mpr ⟨trivial, ?_⟩
  refine ((machine ℕ).meets_cons_iff rfl).mpr ⟨trivial, ?_⟩
  refine ((machine ℕ).meets_cons_iff rfl).mpr ⟨fun h ↦ absurd rfl h, ?_⟩
  refine ((machine ℕ).meets_cons_iff rfl).mpr ⟨fun h ↦ absurd h (by decide), ?_⟩
  refine ((machine ℕ).meets_cons_iff rfl).mpr ⟨fun _ h ↦ absurd h (by decide), ?_⟩
  refine ((machine ℕ).meets_cons_iff rfl).mpr ⟨fun _ ↦ ⟨rfl, ?_⟩, ?_⟩
  · rintro _ ⟨⟩
    unfold Reaches
    decide
  refine ((machine ℕ).meets_cons_iff rfl).mpr ⟨fun _ _ ↦ rfl, ?_⟩
  exact ((machine ℕ).meets_cons_iff rfl).mpr ⟨rfl, trivial⟩

/-- An EOS, and a second player before the server has notified the first one's end. -/
def reopenAfterEos : List (Event ℕ) :=
  [.open "audio/x-raw" { channels := 2, sampleSize := 16 } true, .setEos, .close,
    .open "audio/x-raw" { channels := 2, sampleSize := 16 } true, .notifyNewSample [0, 1, 2, 3],
    .iterate (some 1) true true, .finishPush]

theorem unasked_eos_reachable : ¬∀ (es : List (Event ℕ)) (s : State ℕ),
    (machine ℕ).run {} es = some s → Protocol s := by
  intro h
  obtain ⟨s, hs, hcalls⟩ : ∃ s, (machine ℕ).run {} reopenAfterEos = some s ∧
      (s.eosCalls.map fun c ↦ (c.delivered, c.earlier)) = [(1, 0), (0, 0)] := ⟨_, rfl, rfl⟩
  have hmem : (0, 0) ∈ s.eosCalls.map fun c ↦ (c.delivered, c.earlier) := by simp [hcalls]
  obtain ⟨c, hc, hpair⟩ := List.mem_map.mp hmem
  obtain ⟨hdelivered, hearlier⟩ := Prod.mk.inj hpair
  have hasked := ((h reopenAfterEos s hs).calls c hc).1
  omega

end RialtoGStreamer.WebAudio
