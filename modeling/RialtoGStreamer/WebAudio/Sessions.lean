import RialtoGStreamer.WebAudio.Bytes

/-!
# Players and the samples received for them

The queue of samples belongs to the client, a player only to the time between
its creation and the next one. Each byte carries the number of players that had
been created when it was received, each call of `writeBuffer` the number of the
player that it was made on.
-/

namespace RialtoGStreamer.WebAudio

open Library

variable {β γ : Type*}

/-- The frame size with which a player is opened. -/
def PcmConfig.frameSize (pcm : PcmConfig) : UInt32 :=
  pcm.sampleSize * pcm.channels / 8

/-- The player that an event creates. -/
def State.createdPlayer (s : State β) : Event β → Option PcmConfig
  | .open mimeType pcm created =>
      if (!s.isOpen || s.isNewConfig mimeType pcm) && created then some pcm else none
  | _ => none

/-- The call of `writeBuffer`, accepted or refused, in an iteration. -/
def State.writeCall (s : State β) : Event β → Option (Write β)
  | .iterate (some availableFrames) true _ =>
      s.dataBuffers.head?.bind fun buffer ↦
        let frames := framesToWrite s.frameSize availableFrames buffer.length
        if frames > 0 then
          some ⟨availableFrames, s.frameSize, frames,
            buffer.take (frames.toNat * s.frameSize.toNat)⟩
        else none
  | _ => none

/-- The client together with the configurations of all players created and the
calls of `writeBuffer`, each with the number of its player. -/
structure Sessions (γ : Type*) where
  client : State (ℕ × γ) := {}
  players : List PcmConfig := []
  calls : List (ℕ × Write (ℕ × γ)) := []

namespace Sessions

/-- A received buffer is tagged with the number of players so far. -/
def receive (s : Sessions γ) : Event γ → Event (ℕ × γ)
  | .open mimeType pcm created => .open mimeType pcm created
  | .close => .close
  | .notifyNewSample buf => .notifyNewSample (buf.map (s.players.length, ·))
  | .setEos => .setEos
  | .timerExpired => .timerExpired
  | .notifyPushSamplesTimerExpired => .notifyPushSamplesTimerExpired
  | .iterate available mapped written => .iterate available mapped written
  | .finishPush => .finishPush
  | .notifyEndOfStream => .notifyEndOfStream

def step (s : Sessions γ) (e : Event γ) : Option (Sessions γ) :=
  (s.client.step (s.receive e)).map fun client ↦
    { client
      players := s.players ++ (s.client.createdPlayer (s.receive e)).toList
      calls := s.calls ++ ((s.client.writeCall (s.receive e)).map (s.players.length, ·)).toList }

/-- The player with the given number, from one on. -/
def player (s : Sessions γ) (number : ℕ) : Option PcmConfig :=
  s.players[number - 1]?

end Sessions

def sessions (γ : Type*) : Machine (Sessions γ) (Event γ) where
  step := Sessions.step

/-- A call of `writeBuffer` passes whole frames of its player's size, received
between the creation of that player and of the next. -/
def Isolated (s : Sessions γ) : Prop :=
  ∀ call ∈ s.calls, (∀ x ∈ call.2.bytes, x.1 = call.1) ∧
    ∃ pcm, s.player call.1 = some pcm ∧ call.2.frameSize = pcm.frameSize ∧
      call.2.bytes.length = call.2.framesToWrite.toNat * pcm.frameSize.toNat

/-- A player is created only over an empty queue. -/
def OpensEmpty (s : Sessions γ) (e : Event γ) : Prop :=
  s.client.createdPlayer (s.receive e) ≠ none → s.client.dataBuffers = []

/-- The queued bytes are the last player's, and so is the frame size. -/
structure Current (s : Sessions γ) : Prop where
  tags : ∀ x ∈ s.client.dataBuffers.flatten, x.1 = s.players.length
  frameSize : s.client.frameSize ≠ 0 →
    ∃ pcm, s.player s.players.length = some pcm ∧ s.client.frameSize = pcm.frameSize
  bounded : ∀ call ∈ s.calls, call.1 ≤ s.players.length ∧ 0 < call.1
  isolated : Isolated s

/-! ## The client's steps -/

theorem mem_of_mem_gstBufferResize {buffer : List β} {offset size : ℕ} {x : β}
    (hx : x ∈ gstBufferResize buffer offset size) : x ∈ buffer := by
  unfold gstBufferResize at hx
  split at hx
  · exact List.mem_of_mem_drop (List.mem_of_mem_take hx)
  · exact hx

theorem mem_of_mem_process {s : State β} {availableFrames : UInt32} {buffer : List β}
    {rest : List (List β)} {mapped written : Bool} {x : β}
    (hx : x ∈ (s.process availableFrames buffer rest mapped written).dataBuffers.flatten) :
    x ∈ (buffer :: rest).flatten := by
  have hrest : x ∈ rest.flatten → x ∈ (buffer :: rest).flatten := by
    intro h
    exact List.mem_append_right buffer h
  unfold State.process at hx
  dsimp only at hx
  split at hx
  · exact hrest hx
  · split at hx
    · exact hrest hx
    · dsimp only at hx
      split at hx
      · rw [flatten_keepLeftover, List.mem_append] at hx
        exact hx.elim (fun h ↦ List.mem_append_left _ (mem_of_mem_gstBufferResize h)) hrest
      · exact hrest hx

theorem mem_dataBuffers_of_step {s t : State β} {e : Event β} (hstep : s.step e = some t) {x : β}
    (hx : x ∈ t.dataBuffers.flatten) :
    x ∈ s.dataBuffers.flatten ∨ ∃ buf, e = .notifyNewSample buf ∧ x ∈ buf := by
  cases byteMove_of_step hstep with
  | same _ hbytes =>
      rw [hbytes.dataBuffers] at hx
      exact .inl hx
  | accept buf hbytes =>
      rw [hbytes.dataBuffers, List.flatten_append, List.mem_append] at hx
      exact hx.imp_right fun h ↦ ⟨buf, rfl, by simpa using h⟩
  | refuse mapped written hbytes =>
      rw [hbytes.dataBuffers] at hx
      simp at hx
  | process availableFrames mapped written buffer rest hqueue _ hbytes =>
      rw [hbytes.dataBuffers] at hx
      rw [hqueue]
      exact .inl (mem_of_mem_process hx)

theorem frameSize_openWith (s : State β) (mimeType : String) (pcm : PcmConfig) (created : Bool) :
    (s.openWith mimeType pcm created).frameSize =
      ((s.createdPlayer (.open mimeType pcm created)).map PcmConfig.frameSize).getD
        s.frameSize := by
  unfold State.openWith
  simp only [State.createdPlayer]
  split
  · next hnew =>
      rw [hnew, Bool.true_and]
      cases created <;> rfl
  · next hnew =>
      rw [Bool.eq_false_iff.mpr hnew]
      rfl

theorem frameSize_of_step {s t : State β} {e : Event β} (hstep : s.step e = some t) :
    t.frameSize = ((s.createdPlayer e).map PcmConfig.frameSize).getD s.frameSize := by
  have hmove := step_move hstep
  have hsession : e.isSession = false → t.frameSize = s.frameSize :=
    fun he ↦ congrArg (·.2.2.2) (session_of_move he hmove)
  cases hmove with
  | «open» mimeType pcm created => exact frameSize_openWith s mimeType pcm created
  | close => rfl
  | _ => exact hsession rfl

/-- A call passes whole frames from the front of the queue. -/
theorem writeCall_eq_some {s : State β} {e : Event β} {w : Write β} (h : s.writeCall e = some w) :
    (∀ x ∈ w.bytes, x ∈ s.dataBuffers.flatten) ∧ w.frameSize = s.frameSize ∧ s.frameSize ≠ 0 ∧
      w.bytes.length = w.framesToWrite.toNat * s.frameSize.toNat := by
  unfold State.writeCall at h
  split at h
  · next availableFrames written =>
      obtain ⟨buffer, hfront, h⟩ := Option.bind_eq_some_iff.mp h
      obtain ⟨rest, hqueue⟩ := List.head?_eq_some_iff.mp hfront
      dsimp only at h
      split at h
      · next hframes =>
          cases h
          refine ⟨fun x hx ↦ ?_, rfl, fun hzero ↦ ?_, ?_⟩
          · rw [hqueue, List.flatten_cons]
            exact List.mem_append_left _ (List.mem_of_mem_take hx)
          -- No whole frame of size zero fits into a buffer.
          · have hnone := toNat_framesToWrite s.frameSize availableFrames buffer.length
            rw [hzero] at hnone hframes
            rw [gt_iff_lt, UInt32.lt_iff_toNat_lt, hnone] at hframes
            simp at hframes
          · rw [List.length_take]
            exact Nat.min_eq_left (framesToWrite_mul_le _ _ _)
      · cases h
  · cases h

/-! ## One step -/

theorem player_append {s t : Sessions γ} {l : List PcmConfig}
    (hplayers : t.players = s.players ++ l) {number : ℕ} (hnumber : number ≤ s.players.length)
    (hpos : 0 < number) :
    t.player number = s.player number := by
  unfold Sessions.player
  rw [hplayers]
  exact List.getElem?_append_left (by omega)

theorem tag_of_receive {s : Sessions γ} {e : Event γ} {buf : List (ℕ × γ)}
    (h : s.receive e = .notifyNewSample buf) {x : ℕ × γ} (hx : x ∈ buf) :
    x.1 = s.players.length := by
  cases e with
  | notifyNewSample buf' =>
      cases h
      obtain ⟨y, -, rfl⟩ := List.mem_map.mp hx
      rfl
  | _ => cases h

theorem tags_of_step {s : Sessions γ} {e : Event γ} (h : Current s) (hc : OpensEmpty s e)
    {client : State (ℕ × γ)} (hclient : s.client.step (s.receive e) = some client) :
    ∀ x ∈ client.dataBuffers.flatten,
      x.1 = (s.players ++ (s.client.createdPlayer (s.receive e)).toList).length := by
  intro x hx
  have hfrom := mem_dataBuffers_of_step hclient hx
  cases hcreated : s.client.createdPlayer (s.receive e) with
  | none =>
      rw [Option.toList_none, List.append_nil]
      rcases hfrom with hold | ⟨buf, hreceive, hmem⟩
      · exact h.tags x hold
      · exact tag_of_receive hreceive hmem
  | some pcm =>
      have hempty := hc (by simp [hcreated])
      rcases hfrom with hold | ⟨buf, hreceive, -⟩
      · simp [hempty] at hold
      · rw [hreceive] at hcreated
        cases hcreated

theorem frameSize_of_sessions {s t : Sessions γ} {e : Event γ} (h : Current s)
    (hstep : s.step e = some t) (hframe : t.client.frameSize ≠ 0) :
    ∃ pcm, t.player t.players.length = some pcm ∧ t.client.frameSize = pcm.frameSize := by
  obtain ⟨client, hclient, rfl⟩ := Option.map_eq_some_iff.mp hstep
  have hsize := frameSize_of_step hclient
  dsimp only at hframe ⊢
  cases hcreated : s.client.createdPlayer (s.receive e) with
  | none =>
      rw [hcreated, Option.map_none, Option.getD_none] at hsize
      rw [hsize] at hframe ⊢
      simpa [Sessions.player] using h.frameSize hframe
  | some pcm =>
      rw [hcreated, Option.map_some, Option.getD_some] at hsize
      exact ⟨pcm, by simp [Sessions.player], hsize⟩

theorem call_of_step {s : Sessions γ} {e : Event γ} (h : Current s) {w : Write (ℕ × γ)}
    (hcall : s.client.writeCall (s.receive e) = some w) :
    0 < s.players.length ∧ (∀ x ∈ w.bytes, x.1 = s.players.length) ∧
      ∃ pcm, s.player s.players.length = some pcm ∧ w.frameSize = pcm.frameSize ∧
        w.bytes.length = w.framesToWrite.toNat * pcm.frameSize.toNat := by
  obtain ⟨hfront, hframe, hpos, hlength⟩ := writeCall_eq_some hcall
  obtain ⟨pcm, hplayer, hsize⟩ := h.frameSize hpos
  have hexists : s.players.length - 1 < s.players.length :=
    (List.getElem?_eq_some_iff.mp hplayer).1
  rw [hsize] at hframe hlength
  exact ⟨by omega, fun x hx ↦ h.tags x (hfront x hx), pcm, hplayer, hframe, hlength⟩

theorem current_of_step {s t : Sessions γ} {e : Event γ} (h : Current s) (hc : OpensEmpty s e)
    (hstep : s.step e = some t) : Current t := by
  have hframe := frameSize_of_sessions h hstep
  obtain ⟨client, hclient, rfl⟩ := Option.map_eq_some_iff.mp hstep
  have hcalls : ∀ call ∈ s.calls ++
      ((s.client.writeCall (s.receive e)).map (s.players.length, ·)).toList,
      (call.1 ≤ s.players.length ∧ 0 < call.1) ∧ (∀ x ∈ call.2.bytes, x.1 = call.1) ∧
        ∃ pcm, s.player call.1 = some pcm ∧ call.2.frameSize = pcm.frameSize ∧
          call.2.bytes.length = call.2.framesToWrite.toNat * pcm.frameSize.toNat := by
    intro call hmem
    rcases List.mem_append.mp hmem with hold | hnew
    · exact ⟨h.bounded call hold, h.isolated call hold⟩
    · obtain ⟨w, hcall, rfl⟩ := Option.map_eq_some_iff.mp (Option.mem_toList.mp hnew)
      obtain ⟨hpos, hown⟩ := call_of_step h hcall
      exact ⟨⟨le_rfl, hpos⟩, hown⟩
  refine ⟨tags_of_step h hc hclient, hframe, fun call hmem ↦ ?_, fun call hmem ↦ ?_⟩
  · obtain ⟨hle, hpos⟩ := (hcalls call hmem).1
    exact ⟨Nat.le_trans hle (by simp), hpos⟩
  · obtain ⟨⟨hle, hpos⟩, htags, pcm, hplayer, hown⟩ := hcalls call hmem
    exact ⟨htags, pcm, (player_append rfl hle hpos).trans hplayer, hown⟩

/-! ## Runs -/

theorem current_start : Current ({} : Sessions γ) :=
  ⟨by simp, fun h ↦ absurd rfl h, by simp, by simp [Isolated]⟩

/-- As long as no player is created over queued samples, every player gets its
own samples only. -/
theorem always_isolated {es : List (Event γ)} (hopens : (sessions γ).Meets OpensEmpty {} es) :
    (sessions γ).Always Isolated {} es :=
  (sessions γ).always_of_meets (fun _ _ _ ↦ current_of_step) (fun _ h ↦ h.isolated) current_start
    hopens

/-- A sample for each of two players with different frame sizes. -/
def twoPlayers : List (Event ℕ) :=
  [.open "audio/x-raw" { channels := 2, sampleSize := 16 } true, .notifyNewSample [0, 1, 2, 3],
    .iterate (some 1) true true, .finishPush,
    .open "audio/x-raw" { channels := 1, sampleSize := 16 } true, .notifyNewSample [4, 5],
    .iterate (some 1) true true]

theorem always_isolated_twoPlayers :
    ((sessions ℕ).run {} twoPlayers).isSome = true ∧
      (sessions ℕ).Always Isolated {} twoPlayers := by
  refine ⟨rfl, always_isolated ?_⟩
  refine ((sessions ℕ).meets_cons_iff rfl).mpr ⟨fun _ ↦ rfl, ?_⟩
  refine ((sessions ℕ).meets_cons_iff rfl).mpr ⟨fun h ↦ absurd rfl h, ?_⟩
  refine ((sessions ℕ).meets_cons_iff rfl).mpr ⟨fun h ↦ absurd rfl h, ?_⟩
  refine ((sessions ℕ).meets_cons_iff rfl).mpr ⟨fun h ↦ absurd rfl h, ?_⟩
  refine ((sessions ℕ).meets_cons_iff rfl).mpr ⟨fun _ ↦ rfl, ?_⟩
  refine ((sessions ℕ).meets_cons_iff rfl).mpr ⟨fun h ↦ absurd rfl h, ?_⟩
  exact ((sessions ℕ).meets_cons_iff rfl).mpr ⟨fun h ↦ absurd rfl h, trivial⟩

/-- The first player is closed before it has room for the sample, which is then
cut into the frames of the second one. -/
def reopened : List (Event ℕ) :=
  [.open "audio/x-raw" { channels := 2, sampleSize := 16 } true,
    .notifyNewSample [0, 1, 2, 3], .iterate (some 0) true true, .finishPush, .close,
    .open "audio/x-raw" { channels := 1, sampleSize := 16 } true,
    .notifyNewSample [4, 5], .iterate (some 9) true true]

theorem reopened_run : ∃ s, (sessions ℕ).run {} reopened = some s ∧
    s.calls = [(2, ⟨9, 2, 2, [(1, 0), (1, 1), (1, 2), (1, 3)]⟩)] :=
  ⟨_, rfl, rfl⟩

theorem foreign_samples_reachable : ¬∀ (es : List (Event ℕ)) (s : Sessions ℕ),
    (sessions ℕ).run {} es = some s → Isolated s := by
  intro h
  obtain ⟨s, hs, hcalls⟩ := reopened_run
  have htags := (h reopened s hs _ (by rw [hcalls]; exact List.mem_singleton_self _)).1
  exact absurd (htags (1, 0) (by simp)) (by simp)

end RialtoGStreamer.WebAudio
