import RialtoGStreamer.Flush.Sections

/-!
# A flush that fails

The delegate, the synchronizer and the client record a flush before its outcome
is known, and only a confirmation of the server takes the records back. A flush
of a source that is not attached, or that the backend refuses, is not confirmed.
-/

namespace RialtoGStreamer.Flush

open Library MediaPlayerClient

/-- `stopFlushing`, from its first section to its last. -/
def stopFlushing (resetTime : Bool) (answer : Option Bool) : List Section :=
  [.flushServer, .notifyFlushStarted, .flush resetTime answer, .stopFlushing]

/-- The two failing exits of `flush`. -/
def World.FlushFails (w : World) (answer : Option Bool) : Prop :=
  w.client.attachedSources.lookup w.sourceId = none ∨ answer = none

/-- Nothing is left of a flush. -/
structure Untouched (w w' : World) : Prop where
  synchronizer : ∀ id,
    w'.synchronizer.sourceStates.lookup id = w.synchronizer.sourceStates.lookup id
  wasPlayingBeforeEos : w'.client.wasPlayingBeforeEos = w.client.wasPlayingBeforeEos
  clientState : w'.client.clientState = w.client.clientState
  attachedSources : w'.client.attachedSources = w.client.attachedSources
  isServerFlushOngoing : w'.delegate.isServerFlushOngoing = w.delegate.isServerFlushOngoing
  isTimeResetOngoing : w'.delegate.isTimeResetOngoing = w.delegate.isTimeResetOngoing

/-- All that a flush of the source would record is recorded already. -/
structure World.FlushRecorded (w : World) : Prop where
  synchronizer : w.synchronizer.sourceStates.lookup w.sourceId =
    some { flushState := .flushing, dataState := .noData }
  wasPlayingBeforeEos : w.client.wasPlayingBeforeEos = false
  isServerFlushOngoing : w.delegate.isServerFlushOngoing = true
  isTimeResetOngoing : w.delegate.isTimeResetOngoing = true

/-! ## What a failed flush leaves -/

theorem flush_of_fails {w : World} (resetTime : Bool) {answer : Option Bool}
    (h : w.FlushFails answer) :
    (w.client.flush w.sourceId resetTime answer).wasPlayingBeforeEos = false ∧
      (w.client.flush w.sourceId resetTime answer).clientState = w.client.clientState ∧
      (w.client.flush w.sourceId resetTime answer).attachedSources =
        w.client.attachedSources := by
  unfold Client.flush
  dsimp only
  split
  · exact ⟨rfl, rfl, rfl⟩
  · next source hsource =>
      rcases h with hnone | rfl
      · rw [hsource] at hnone
        cases hnone
      · exact ⟨rfl, rfl, rfl⟩

/-- The world behind `stopFlushing`. -/
theorem run_stopFlushing {w w' : World} {resetTime : Bool} {answer : Option Bool}
    (hrun : sections.run w (stopFlushing resetTime answer) = some w') :
    w' = { w with
      client := w.client.flush w.sourceId resetTime answer
      synchronizer := w.synchronizer.notifyFlushStarted w.sourceId
      delegate := w.delegate.flushServer.stopFlushing
      sink := .idle } := by
  obtain ⟨w₁, h₁, hrun⟩ := sections.run_cons_eq_some_iff.mp hrun
  obtain ⟨w₂, h₂, hrun⟩ := sections.run_cons_eq_some_iff.mp hrun
  obtain ⟨w₃, h₃, hrun⟩ := sections.run_cons_eq_some_iff.mp hrun
  obtain ⟨w₄, h₄, hrun⟩ := sections.run_cons_eq_some_iff.mp hrun
  cases hrun
  simp only [sections, World.step] at h₁ h₂ h₃ h₄
  split at h₁ <;> cases h₁
  split at h₂ <;> cases h₂
  split at h₃ <;> cases h₃
  split at h₄ <;> cases h₄
  rfl

theorem lookup_notifyFlushStarted (s : Synchronizer) (j id : SourceId) :
    (s.notifyFlushStarted id).sourceStates.lookup j =
      if j = id then some { flushState := .flushing, dataState := .noData }
      else s.sourceStates.lookup j :=
  Table.lookup_insert s.sourceStates j id _

theorem notifyFlushStarted_lookup_eq_iff (s : Synchronizer) (id : SourceId) :
    (∀ j, (s.notifyFlushStarted id).sourceStates.lookup j = s.sourceStates.lookup j) ↔
      s.sourceStates.lookup id = some { flushState := .flushing, dataState := .noData } := by
  constructor
  · intro h
    rw [← h id, lookup_notifyFlushStarted, if_pos rfl]
  · intro h j
    rw [lookup_notifyFlushStarted]
    split
    · next hj => rw [hj, h]
    · rfl

theorem untouched_iff_flushRecorded {w w' : World} {resetTime : Bool} {answer : Option Bool}
    (hfail : w.FlushFails answer)
    (hrun : sections.run w (stopFlushing resetTime answer) = some w') :
    Untouched w w' ↔ w.FlushRecorded := by
  obtain ⟨heos, hstate, hsources⟩ := flush_of_fails resetTime hfail
  obtain rfl := run_stopFlushing hrun
  constructor
  · intro h
    exact ⟨(notifyFlushStarted_lookup_eq_iff _ _).mp h.synchronizer,
      h.wasPlayingBeforeEos.symm.trans heos, h.isServerFlushOngoing.symm,
      h.isTimeResetOngoing.symm⟩
  · intro h
    exact ⟨(notifyFlushStarted_lookup_eq_iff _ _).mpr h.synchronizer,
      heos.trans h.wasPlayingBeforeEos.symm, hstate, hsources, h.isServerFlushOngoing.symm,
      h.isTimeResetOngoing.symm⟩

/-- A second `FLUSH_STOP`, while the flush of the first one is outstanding. -/
def recordedWorld : World where
  sourceId := 1
  client := { attachedSources := (∅ : Table _ _).insert 1 { type := .audio, isFlushing := true } }
  synchronizer := Synchronizer.notifyFlushStarted {} 1
  delegate := { isServerFlushOngoing := true, isTimeResetOngoing := true }

theorem untouched_recordedWorld : ∃ w', sections.run recordedWorld (stopFlushing true none) =
    some w' ∧ Untouched recordedWorld w' :=
  ⟨_, rfl, (untouched_iff_flushRecorded (.inr rfl) rfl).mpr ⟨rfl, rfl, rfl, rfl⟩⟩

/-- A source that was never attached. -/
theorem failed_flush_leaves_trace : ¬∀ (w w' : World) (resetTime : Bool) (answer : Option Bool),
    w.FlushFails answer → sections.run w (stopFlushing resetTime answer) = some w' →
      Untouched w w' := by
  intro h
  have huntouched := h { sourceId := -1 } _ true none (.inr rfl) rfl
  exact absurd huntouched.isServerFlushOngoing (by decide)

/-! ## Who is blocked -/

/-- Who asks the synchronizer or the delegate gets the same answer as before. -/
theorem Untouched.answers {w w' : World} (h : Untouched w w') :
    w'.synchronizer.isAnySourceFlushing = w.synchronizer.isAnySourceFlushing ∧
      (∀ id, w'.synchronizer.mayProceed id = w.synchronizer.mayProceed id) ∧
      skipsPositionQuery w'.delegate = skipsPositionQuery w.delegate := by
  refine ⟨?_, fun id ↦ ?_, ?_⟩
  · rw [Bool.eq_iff_iff, Synchronizer.isAnySourceFlushing_iff,
      Synchronizer.isAnySourceFlushing_iff]
    simp only [Synchronizer.get, h.synchronizer]
  · rw [Bool.eq_iff_iff, Synchronizer.mayProceed_iff, Synchronizer.mayProceed_iff]
    simp only [Synchronizer.get, h.synchronizer]
  · unfold skipsPositionQuery
    rw [h.isServerFlushOngoing, h.isTimeResetOngoing]

/-- `stopFlushing` leaves the updates of the playback info, the next flush, the
pulls, the position queries and the end of stream blocked, also behind a flush
that failed. -/
theorem blocked_of_stopFlushing {w w' : World} {resetTime : Bool} {answer : Option Bool}
    (hrun : sections.run w (stopFlushing resetTime answer) = some w') :
    w'.synchronizer.isAnySourceFlushing = true ∧ w'.synchronizer.mayProceed w.sourceId = false ∧
      w'.delegate.getFrontSample = none ∧ skipsPositionQuery w'.delegate = true ∧
      ∀ current, postedByHandleEos w'.delegate current ≠ some .eos := by
  obtain rfl := run_stopFlushing hrun
  have hflushing : ((w.synchronizer.notifyFlushStarted w.sourceId).get w.sourceId).flushState =
      .flushing := by
    rw [Synchronizer.flushState_notifyFlushStarted, if_pos rfl]
  refine ⟨Synchronizer.isAnySourceFlushing_iff.mpr ⟨_, hflushing⟩,
    Synchronizer.mayProceed_of_flushing hflushing, rfl, rfl, fun current ↦ ?_⟩
  unfold postedByHandleEos
  split
  · simp
  · simp [PullMode.State.flushServer, PullMode.State.stopFlushing]

end RialtoGStreamer.Flush
