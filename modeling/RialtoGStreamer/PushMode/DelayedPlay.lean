import RialtoGStreamer.PushMode.Moves

/-!
# Delayed play

PLAYING is delayed until CAPS opens the client. The flag for it is cleared only when
the backend accepts the delayed `play`, so it can outlive the request.
-/

namespace RialtoGStreamer.PushMode

open Library

variable {β : Type*}

/-- Delayed `play`s are called while PLAYING is still wanted, each once. -/
structure Fresh (s : State β) : Prop where
  wanted : ∀ play ∈ s.delayedPlays, play.requested = some .pausedToPlaying
  once : (s.delayedPlays.map (·.request)).Nodup

/-- The flag is set, but another transition has been requested since, or the delayed
`play` has been called before. -/
def LeftOver (s : State β) : Prop :=
  s.isPlayingDelayed = true ∧
    (s.requested ≠ some .pausedToPlaying ∨ s.delays ∈ s.delayedPlays.map (·.request))

instance (s : State β) : Decidable (LeftOver s) :=
  inferInstanceAs (Decidable (_ ∧ (_ ∨ _)))

/-- CAPS does not open the client while the flag is left over. -/
def OpensTimely (s : State β) : Event β → Prop
  | .caps caps created _ _ => (s.client.openCaps caps created).2 = true → ¬LeftOver s
  | _ => True

instance (s : State β) : (e : Event β) → Decidable (OpensTimely s e)
  | .caps _ _ _ _ => inferInstanceAs (Decidable (_ → _))
  | .changeState _ _ | .eos | .handleBuffer _ | .setVolume | .handleStateChanged _ _
  | .client _ => isTrue trivial

/-! ## One step -/

theorem fresh_append_iff {s t : State β} (hfresh : Fresh s) (played : Bool)
    (h : t.delayedPlays = s.delayedPlays ++ [⟨s.requested, s.delays, played⟩]) :
    Fresh t ↔ s.requested = some .pausedToPlaying ∧
      s.delays ∉ s.delayedPlays.map (·.request) := by
  constructor
  · rintro ⟨hwanted, honce⟩
    rw [h] at hwanted honce
    refine ⟨hwanted _ List.mem_concat_self, ?_⟩
    rw [List.map_append, List.map_singleton, List.nodup_append] at honce
    exact fun hmem ↦ honce.2.2 _ hmem _ (List.mem_singleton.mpr rfl) rfl
  · rintro ⟨hwanted, honce⟩
    refine ⟨?_, ?_⟩
    · rw [h, List.forall_mem_append]
      exact ⟨hfresh.wanted, by simpa using hwanted⟩
    · rw [h, List.map_append, List.map_singleton, List.nodup_append]
      refine ⟨hfresh.once, List.nodup_singleton _, fun request hmem other hother ↦ ?_⟩
      obtain rfl := List.mem_singleton.mp hother
      rintro rfl
      exact honce hmem

theorem fresh_of_same {s t : State β} (hfresh : Fresh s) (h : t.delayedPlays = s.delayedPlays) :
    Fresh t :=
  ⟨by rw [h]; exact hfresh.wanted, by rw [h]; exact hfresh.once⟩

theorem fresh_of_step {s t : State β} {e : Event β} (hfresh : Fresh s)
    (h : s.step e = some t) : Fresh t ↔ OpensTimely s e := by
  cases pending_move h with
  | changeState transition answer ht =>
      refine iff_of_true (fresh_of_same hfresh ?_) trivial
      have hplays := congrArg Pending.delayedPlays ht
      split at hplays <;> exact hplays
  | caps caps created volumeSet played ht =>
      have hplays := congrArg Pending.delayedPlays ht
      split at hplays
      · next hmade =>
          rw [fresh_append_iff hfresh played hplays]
          simp [OpensTimely, LeftOver, hmade.1, hmade.2]
      · next hmade =>
          apply iff_of_true (fresh_of_same hfresh hplays)
          intro hopened hleft
          exact hmade ⟨hopened, hleft.1⟩
  | eos ht | handleBuffer _ ht | setVolume ht | handleStateChanged _ _ ht | client _ ht =>
      exact iff_of_true (fresh_of_same hfresh (congrArg Pending.delayedPlays ht)) trivial

/-! ## Runs -/

/-- Delayed `play`s are fresh throughout a run exactly if CAPS never opens the client
with the flag left over. -/
theorem always_fresh_iff {s : State β} {es : List (Event β)}
    (hrun : (machine β).run {} es = some s) :
    (machine β).Always Fresh {} es ↔ (machine β).Meets OpensTimely {} es := by
  have hstart : Fresh ({} : State β) := ⟨by simp, List.nodup_nil⟩
  exact (machine β).always_iff_meets (J := fun _ ↦ True) (fun _ _ _ _ _ _ _ ↦ trivial)
    (fun _ _ _ _ hfresh hstep ↦ fresh_of_step hfresh hstep) trivial hstart hrun

/-- The caps come after the application has asked for PLAYING. -/
def playedFromCaps : List (Event ℕ) :=
  [.changeState .nullToReady true, .changeState .readyToPaused true,
    .changeState .pausedToPlaying true, .caps WebAudio.stereoCaps true true true]

theorem playedFromCaps_run : ((machine ℕ).run {} playedFromCaps).map (·.delayedPlays) =
    some [⟨some .pausedToPlaying, 1, true⟩] := by
  decide +kernel

theorem always_fresh_playedFromCaps : ∃ s, (machine ℕ).run {} playedFromCaps = some s ∧
    s.delayedPlays = [⟨some .pausedToPlaying, 1, true⟩] ∧
      (machine ℕ).Always Fresh {} playedFromCaps := by
  obtain ⟨s, hrun, hplays⟩ := Option.map_eq_some_iff.mp playedFromCaps_run
  exact ⟨s, hrun, hplays, (always_fresh_iff hrun).mpr (by decide +kernel)⟩

/-- The application gives PLAYING up for READY and comes back to PAUSED before there
are any caps. -/
def stoppedBeforeCaps : List (Event ℕ) :=
  [.changeState .nullToReady true, .changeState .readyToPaused true,
    .changeState .pausedToPlaying true, .changeState .pausedToReady true,
    .changeState .readyToPaused true, .caps WebAudio.stereoCaps true true true]

theorem stale_play_reachable : ¬∀ (es : List (Event ℕ)) (s : State ℕ),
    (machine ℕ).run {} es = some s → (machine ℕ).Always Fresh {} es := by
  intro h
  have hrun : ((machine ℕ).run {} stoppedBeforeCaps).map (·.delayedPlays) =
      some [⟨some .readyToPaused, 1, true⟩] := by
    decide +kernel
  obtain ⟨s, hs, hplays⟩ := Option.map_eq_some_iff.mp hrun
  have hwanted := ((h stoppedBeforeCaps s hs).last (machine ℕ) hs).wanted
  rw [hplays] at hwanted
  exact absurd (hwanted _ (List.mem_singleton.mpr rfl)) (by decide)

/-! ## Without anything in between -/

/-- No other transition is requested while PLAYING is delayed, and the backend
accepts the delayed `play`. -/
def Orderly (s : State β) : Event β → Prop
  | .changeState transition _ => s.isPlayingDelayed = true →
      transition = .pausedToPlaying ∨ transition.isBetweenReadyAndPlaying = false
  | .caps _ _ _ played => s.isPlayingDelayed = true → played = true
  | _ => True

/-- The delayed `play`s have numbers up to the present one, and the flag is not left
over. -/
structure InTime (s : State β) : Prop where
  numbered : ∀ play ∈ s.delayedPlays, play.request ≤ s.delays
  current : ¬LeftOver s

theorem InTime.of_pending {s t : State β} (hin : InTime s) (h : t.pending = s.pending) :
    InTime t := by
  have hflag : t.isPlayingDelayed = s.isPlayingDelayed := congrArg Pending.isPlayingDelayed h
  have hrequested : t.requested = s.requested := congrArg Pending.requested h
  have hdelays : t.delays = s.delays := congrArg Pending.delays h
  have hplays : t.delayedPlays = s.delayedPlays := congrArg Pending.delayedPlays h
  refine ⟨?_, ?_⟩
  · rw [hplays, hdelays]
    exact hin.numbered
  · unfold LeftOver
    rw [hflag, hrequested, hdelays, hplays]
    exact hin.current

/-- Before the delayed `play` of the next request is called, its number is new. -/
theorem InTime.next_not_mem {s : State β} (hin : InTime s) :
    s.delays + 1 ∉ s.delayedPlays.map (·.request) := by
  intro hmem
  obtain ⟨play, hplay, hnumber⟩ := List.mem_map.mp hmem
  have hle := hin.numbered play hplay
  omega

theorem inTime_request {s : State β} (hin : InTime s) {transition : Transition}
    (he : s.isPlayingDelayed = true →
      transition = .pausedToPlaying ∨ transition.isBetweenReadyAndPlaying = false) :
    InTime (s.request transition) := by
  refine ⟨hin.numbered, ?_⟩
  rintro ⟨hflag, hleft⟩
  refine hin.current ⟨hflag, hleft.imp_left fun hrequested ↦ ?_⟩
  rcases he hflag with rfl | hother
  · exact absurd rfl hrequested
  · simpa [State.request, hother] using hrequested

theorem inTime_of_step {s t : State β} {e : Event β} (hin : InTime s) (he : Orderly s e)
    (h : s.step e = some t) : InTime t := by
  cases pending_move h with
  | changeState transition answer ht =>
      split at ht
      · next hdelayed =>
          obtain ⟨rfl, -⟩ := hdelayed
          have hrequested : t.requested = some .pausedToPlaying := congrArg Pending.requested ht
          have hdelays : t.delays = s.delays + 1 := congrArg Pending.delays ht
          have hplays : t.delayedPlays = s.delayedPlays := congrArg Pending.delayedPlays ht
          refine ⟨fun play hplay ↦ ?_, ?_⟩
          · rw [hplays] at hplay
            have hle := hin.numbered play hplay
            omega
          · rintro ⟨-, hleft⟩
            rw [hrequested, hdelays, hplays] at hleft
            exact hleft.elim (fun hne ↦ hne rfl) hin.next_not_mem
      · exact (inTime_request hin he).of_pending ht
  | caps caps created volumeSet played ht =>
      split at ht
      · next hmade =>
          -- The call is accepted, and the flag is cleared.
          obtain rfl := he hmade.2
          have hflag : t.isPlayingDelayed = false := congrArg Pending.isPlayingDelayed ht
          have hdelays : t.delays = s.delays := congrArg Pending.delays ht
          have hplays : t.delayedPlays = s.delayedPlays ++ [⟨s.requested, s.delays, true⟩] :=
            congrArg Pending.delayedPlays ht
          refine ⟨?_, fun hleft ↦ ?_⟩
          · rw [hplays, hdelays, List.forall_mem_append]
            exact ⟨hin.numbered, by simp⟩
          · rw [hleft.1] at hflag
            cases hflag
      · exact hin.of_pending ht
  | eos ht | handleBuffer _ ht | setVolume ht | handleStateChanged _ _ ht | client _ ht =>
      exact hin.of_pending ht

/-- Delayed `play`s are fresh when nothing comes in between. -/
theorem always_fresh_of_orderly {es : List (Event β)} (horderly : (machine β).Meets Orderly {} es) :
    (machine β).Always Fresh {} es := by
  have hstart : InTime ({} : State β) ∧ Fresh ({} : State β) :=
    ⟨⟨by simp, fun h ↦ Bool.false_ne_true h.1⟩, by simp, List.nodup_nil⟩
  refine (machine β).always_of_meets (I := fun s ↦ InTime s ∧ Fresh s) ?_ (fun _ h ↦ h.2) hstart
    horderly
  rintro s e t ⟨hin, hfresh⟩ he hstep
  refine ⟨inTime_of_step hin he hstep, (fresh_of_step hfresh hstep).mpr ?_⟩
  unfold OpensTimely
  split
  · exact fun _ ↦ hin.current
  · trivial

end RialtoGStreamer.PushMode
