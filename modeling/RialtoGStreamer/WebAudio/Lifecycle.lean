import RialtoGStreamer.WebAudio.Caps

/-!
# Opening and closing the web-audio player

The client next to the backend, which has a player or none. `open` destroys the
player before it knows whether the next one can be created, and the stored
configuration outlives the player; what is stored counts only while `m_isOpen`.
-/

namespace RialtoGStreamer.WebAudio

open Library

variable {β : Type*}

/-- A call of `createWebAudioBackend`, and the player that was alive then. -/
structure Creation where
  mimeType : String
  pcm : PcmConfig
  created : Bool
  alive : Option (String × PcmConfig)
  deriving DecidableEq

/-- The live player with what it was created from, and the calls so far. -/
structure Backend where
  player : Option (String × PcmConfig) := none
  creations : List Creation := []

namespace Backend

def destroyWebAudioBackend (b : Backend) : Backend :=
  { b with player := none }

/-- A call that fails leaves no player alive. -/
def createWebAudioBackend (b : Backend) (mimeType : String) (pcm : PcmConfig) (created : Bool) :
    Backend :=
  { player := if created then some (mimeType, pcm) else none
    creations := b.creations ++ [⟨mimeType, pcm, created, b.player⟩] }

end Backend

structure Lifecycle (β : Type*) where
  client : State β := {}
  backend : Backend := {}

/-- `client` is any operation of the client but `open` and `close`. -/
inductive LifecycleEvent (β : Type*) where
  | openCaps (caps : Caps) (created : Bool)
  | close
  | client (e : Event β)

namespace Lifecycle

def openCaps (s : Lifecycle β) (caps : Caps) (created : Bool) : Lifecycle β × Bool :=
  match caps.parse with
  | none => (s, false)
  | some (mimeType, pcm) =>
      if !s.client.isOpen || s.client.isNewConfig mimeType pcm then
        let backend := if s.client.isOpen then s.backend.destroyWebAudioBackend else s.backend
        ({ client := (s.client.openCaps caps created).1
           backend := backend.createWebAudioBackend mimeType pcm created },
          (s.client.openCaps caps created).2)
      else (s, false)

def close (s : Lifecycle β) : Lifecycle β :=
  { client := s.client.close, backend := s.backend.destroyWebAudioBackend }

def step (s : Lifecycle β) : LifecycleEvent β → Option (Lifecycle β)
  | .openCaps caps created =>
      if s.client.worker = .idle then some (s.openCaps caps created).1 else none
  | .close => if s.client.worker = .idle then some s.close else none
  | .client e =>
      if e.isSession then none else (s.client.step e).map fun client ↦ { s with client }

end Lifecycle

def lifecycle (β : Type*) : Machine (Lifecycle β) (LifecycleEvent β) where
  step := Lifecycle.step

/-- The flag and the stored configuration are those of the live player, and a
player is created only when none is alive. -/
structure Tied (s : Lifecycle β) : Prop where
  alive : s.client.isOpen = true ↔ s.backend.player.isSome = true
  stored : s.client.isOpen = true →
    s.backend.player = some (s.client.mimeType, s.client.config) ∧
      s.client.frameSize = s.client.config.frameSize
  alone : ∀ creation ∈ s.backend.creations, creation.alive = none

/-- What `open` returns, and that it leaves a live raw player with the same
configuration alone. -/
structure OpensTruly (s : Lifecycle β) (caps : Caps) (created : Bool) : Prop where
  result : (s.openCaps caps created).2 = true ↔
    ∃ mimeType pcm, caps.parse = some (mimeType, pcm) ∧
      (s.openCaps caps created).1.backend.creations =
        s.backend.creations ++ [⟨mimeType, pcm, true, none⟩] ∧
      (s.openCaps caps created).1.backend.player = some (mimeType, pcm)
  same : ∀ pcm, caps.parse = some ("audio/x-raw", pcm) →
    s.backend.player = some ("audio/x-raw", pcm) → s.openCaps caps created = (s, false)

/-! ## One operation -/

theorem isNewConfig_eq_false_iff {s : State β} {mimeType : String} {pcm : PcmConfig} :
    s.isNewConfig mimeType pcm = false ↔
      mimeType = s.mimeType ∧ mimeType = "audio/x-raw" ∧ pcm = s.config := by
  simp [State.isNewConfig, and_assoc]

/-- The player is destroyed before the next one is created. -/
theorem Tied.destroyed {s : Lifecycle β} (h : Tied s) :
    (if s.client.isOpen then s.backend.destroyWebAudioBackend else s.backend).player = none ∧
      (if s.client.isOpen then s.backend.destroyWebAudioBackend else s.backend).creations =
        s.backend.creations := by
  split
  · exact ⟨rfl, rfl⟩
  · next hclosed =>
      refine ⟨?_, rfl⟩
      rw [← Option.not_isSome_iff_eq_none]
      exact fun hplayer ↦ hclosed (h.alive.mpr hplayer)

/-- `open` of a new configuration: whatever was alive is destroyed, and the player
is created or not. -/
theorem openCaps_of_new {s : Lifecycle β} (h : Tied s) {caps : Caps} {created : Bool}
    {mimeType : String} {pcm : PcmConfig} (hparse : caps.parse = some (mimeType, pcm))
    (hnew : (!s.client.isOpen || s.client.isNewConfig mimeType pcm) = true) :
    s.openCaps caps created =
      ({ client := s.client.openWith mimeType pcm created
         backend :=
          { player := if created then some (mimeType, pcm) else none
            creations := s.backend.creations ++ [⟨mimeType, pcm, created, none⟩] } },
        created) := by
  obtain ⟨hplayer, hcreations⟩ := h.destroyed
  simp only [Lifecycle.openCaps, hparse, hnew, if_true, State.openCaps, Bool.true_and,
    Backend.createWebAudioBackend, hplayer, hcreations]

theorem openCaps_of_same {s : Lifecycle β} {caps : Caps} {created : Bool} {mimeType : String}
    {pcm : PcmConfig} (hparse : caps.parse = some (mimeType, pcm))
    (hnew : (!s.client.isOpen || s.client.isNewConfig mimeType pcm) = false) :
    s.openCaps caps created = (s, false) := by
  simp only [Lifecycle.openCaps, hparse, hnew, Bool.false_eq_true, if_false]

theorem openWith_of_new {s : State β} {mimeType : String} {pcm : PcmConfig} (created : Bool)
    (hnew : (!s.isOpen || s.isNewConfig mimeType pcm) = true) :
    (s.openWith mimeType pcm created).isOpen = created ∧
      (created = true → (s.openWith mimeType pcm created).session =
        (true, mimeType, pcm, pcm.frameSize)) := by
  unfold State.openWith
  rw [if_pos hnew]
  cases created with
  | true => exact ⟨rfl, fun _ ↦ rfl⟩
  | false => exact ⟨rfl, fun hcreated ↦ absurd hcreated Bool.false_ne_true⟩

theorem tied_openCaps {s : Lifecycle β} (h : Tied s) (caps : Caps) (created : Bool) :
    Tied (s.openCaps caps created).1 := by
  rcases hparse : caps.parse with _ | ⟨mimeType, pcm⟩
  · simpa only [Lifecycle.openCaps, hparse] using h
  · cases hnew : (!s.client.isOpen || s.client.isNewConfig mimeType pcm) with
    | false =>
        rw [openCaps_of_same hparse hnew]
        exact h
    | true =>
        obtain ⟨hopen, hsession⟩ := openWith_of_new created hnew
        rw [openCaps_of_new h hparse hnew]
        refine ⟨?_, fun hset ↦ ?_, fun creation hmem ↦ ?_⟩
        · change (s.client.openWith mimeType pcm created).isOpen = true ↔ _
          rw [hopen]
          cases created <;> simp
        · obtain rfl : created = true := hopen.symm.trans hset
          obtain ⟨-, hmime, hconfig, hsize⟩ : _ ∧ _ ∧ _ ∧ _ := by
            simpa [State.session] using hsession rfl
          refine ⟨?_, ?_⟩
          · change some (mimeType, pcm) = some (_, _)
            rw [hmime, hconfig]
          · change (s.client.openWith mimeType pcm true).frameSize = _
            rw [hsize]
            exact congrArg PcmConfig.frameSize hconfig.symm
        · rcases List.mem_append.mp hmem with hold | hlast
          · exact h.alone creation hold
          · rw [List.mem_singleton.mp hlast]

theorem tied_of_session {s : Lifecycle β} {client : State β} (h : Tied s)
    (hsession : client.session = s.client.session) : Tied { s with client := client } := by
  obtain ⟨hopen, hmime, hconfig, hsize⟩ : _ ∧ _ ∧ _ ∧ _ := by
    simpa [State.session] using hsession
  refine ⟨?_, fun hset ↦ ?_, h.alone⟩
  · change client.isOpen = true ↔ _
    rw [hopen]
    exact h.alive
  · obtain ⟨hplayer, hframe⟩ := h.stored (hopen.symm.trans hset)
    refine ⟨?_, ?_⟩
    · change s.backend.player = some (client.mimeType, client.config)
      rw [hmime, hconfig]
      exact hplayer
    · change client.frameSize = client.config.frameSize
      rw [hsize, hconfig]
      exact hframe

theorem tied_step {s t : Lifecycle β} {e : LifecycleEvent β} (h : Tied s)
    (hstep : s.step e = some t) : Tied t := by
  cases e with
  | openCaps caps created =>
      simp only [Lifecycle.step] at hstep
      split at hstep <;> cases hstep
      exact tied_openCaps h caps created
  | close =>
      simp only [Lifecycle.step] at hstep
      split at hstep <;> cases hstep
      exact ⟨iff_of_false Bool.false_ne_true Bool.false_ne_true,
        fun hset ↦ absurd hset Bool.false_ne_true, h.alone⟩
  | client e =>
      simp only [Lifecycle.step] at hstep
      split at hstep
      · cases hstep
      · next hother =>
          obtain ⟨client, hclient, rfl⟩ := Option.map_eq_some_iff.mp hstep
          have hsession := session_of_move (Bool.eq_false_iff.mpr hother) (step_move hclient)
          exact tied_of_session h hsession

theorem opensTruly_of_tied {s : Lifecycle β} (h : Tied s) (caps : Caps) (created : Bool) :
    OpensTruly s caps created := by
  refine ⟨?_, fun pcm hparse hplayer ↦ ?_⟩
  · rcases hparse : caps.parse with _ | ⟨mimeType, pcm⟩
    · simp [Lifecycle.openCaps, hparse]
    · cases hnew : (!s.client.isOpen || s.client.isNewConfig mimeType pcm) with
      | false =>
          rw [openCaps_of_same hparse hnew]
          simp
      | true =>
          rw [openCaps_of_new h hparse hnew]
          cases created <;> simp
  · have hopen : s.client.isOpen = true := h.alive.mpr (by rw [hplayer]; rfl)
    obtain ⟨hstored, -⟩ := h.stored hopen
    obtain ⟨hmime, hconfig⟩ := Prod.mk.inj (Option.some.inj (hplayer.symm.trans hstored))
    apply openCaps_of_same hparse
    rw [hopen, isNewConfig_eq_false_iff.mpr ⟨hmime, rfl, hconfig⟩]
    rfl

/-! ## Runs -/

theorem lifecycle_of_run {es : List (LifecycleEvent β)} {s : Lifecycle β}
    (hrun : (lifecycle β).run {} es = some s) :
    Tied s ∧ ∀ caps created, OpensTruly s caps created := by
  have hstart : Tied ({} : Lifecycle β) := by
    refine ⟨iff_of_false Bool.false_ne_true Bool.false_ne_true, ?_, ?_⟩
    · exact fun hset ↦ absurd hset Bool.false_ne_true
    · simp
  have htied : Tied s := (lifecycle β).invariant (fun _ _ _ ↦ tied_step) hstart hrun
  exact ⟨htied, opensTruly_of_tied htied⟩

/-- The second open is refused by the backend, which has destroyed the first
player by then; the third one succeeds. -/
def reopenedTwice : List (LifecycleEvent ℕ) :=
  [.openCaps stereoCaps true, .openCaps { stereoCaps with channels := some 1 } false,
    .openCaps stereoCaps true, .client (.notifyNewSample [0, 1, 2, 3])]

theorem reopenedTwice_run : ((lifecycle ℕ).run {} reopenedTwice).map
    (fun s ↦ s.backend.creations.map (·.created)) = some [true, false, true] := by
  decide +kernel

theorem lifecycle_reopenedTwice : ∃ s, (lifecycle ℕ).run {} reopenedTwice = some s ∧
    s.backend.creations.map (·.created) = [true, false, true] ∧
      Tied s ∧ ∀ caps created, OpensTruly s caps created := by
  obtain ⟨s, hrun, hcreated⟩ := Option.map_eq_some_iff.mp reopenedTwice_run
  exact ⟨s, hrun, hcreated, lifecycle_of_run hrun⟩

end RialtoGStreamer.WebAudio
