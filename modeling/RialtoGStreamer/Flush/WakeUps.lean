import RialtoGStreamer.Flush.Synchronizer

/-!
# Which methods of the synchronizer wake a waiter

A thread in `waitIfRequired` looks at its predicate again only when a method
notifies the condition variable. Two methods that can make the predicate true
do not notify it.
-/

namespace RialtoGStreamer.Flush

open Library MediaPlayerClient

/-- The methods that write the map. -/
inductive SourceMethod where
  | addSource
  | removeSource
  | notifyFlushStarted
  | notifyFlushCompleted
  | notifyDataReceived
  | notifyDataPushed
  deriving DecidableEq

namespace Synchronizer

def call (s : Synchronizer) : SourceMethod → SourceId → Synchronizer
  | .addSource, id => s.addSource id
  | .removeSource, id => s.removeSource id
  | .notifyFlushStarted, id => s.notifyFlushStarted id
  | .notifyFlushCompleted, id => s.notifyFlushCompleted id
  | .notifyDataReceived, id => s.notifyDataReceived id
  | .notifyDataPushed, id => s.notifyDataPushed id

/-- The methods that call `m_cv.notify_all()`. -/
def notifies : SourceMethod → Bool
  | .removeSource | .notifyFlushCompleted | .notifyDataPushed => true
  | .addSource | .notifyFlushStarted | .notifyDataReceived => false

/-- A waiter that the method releases is notified. -/
def WakesReleased (s : Synchronizer) (method : SourceMethod) (id w : SourceId) : Prop :=
  s.mayProceed w = false → (s.call method id).mayProceed w = true → notifies method = true

/-- The entry of `id` is all that `w` waits for. -/
def OnlyBlocker (s : Synchronizer) (id w : SourceId) : Prop :=
  blocks w (id, s.get id) = true ∧ ∀ j, j ≠ id → blocks w (j, s.get j) = false

/-- The source is added anew, or a flush of another source than `w` is started,
when its entry is all that `w` waits for. -/
def ResetsOnlyBlocker (s : Synchronizer) (method : SourceMethod) (id w : SourceId) : Prop :=
  (method = .addSource ∨ method = .notifyFlushStarted ∧ id ≠ w) ∧ s.OnlyBlocker id w

/-! ## The predicate of the wait -/

theorem mayProceed_set_iff {s : Synchronizer} {id w : SourceId} {state : SourceState} :
    (s.set id state).mayProceed w = true ↔
      blocks w (id, state) = false ∧ ∀ j, j ≠ id → blocks w (j, s.get j) = false := by
  rw [mayProceed_iff]
  constructor
  · intro h
    refine ⟨by simpa using h id, fun j hj ↦ ?_⟩
    simpa [hj] using h j
  · rintro ⟨hid, hother⟩ j
    by_cases hj : j = id
    · subst hj
      simpa using hid
    · simpa [hj] using hother j hj

/-- A write releases a waiter when the old entry was all that blocked it and the
new one does not. -/
theorem released_set_iff (s : Synchronizer) (id w : SourceId) (state : SourceState) :
    (s.mayProceed w = false ∧ (s.set id state).mayProceed w = true) ↔
      s.OnlyBlocker id w ∧ blocks w (id, state) = false := by
  rw [mayProceed_set_iff, ← Bool.not_eq_true, mayProceed_iff]
  constructor
  · rintro ⟨hblocked, hnew, hother⟩
    refine ⟨⟨?_, hother⟩, hnew⟩
    by_contra hfree
    apply hblocked
    intro j
    by_cases hj : j = id
    · subst hj
      exact Bool.eq_false_iff.mpr hfree
    · exact hother j hj
  · rintro ⟨⟨hold, hother⟩, hnew⟩
    refine ⟨fun hfree ↦ ?_, hnew, hother⟩
    rw [hfree id] at hold
    cases hold

/-- Received data does not release anybody. -/
theorem not_released_notifyDataReceived (s : Synchronizer) (id w : SourceId) :
    ¬(s.mayProceed w = false ∧ (s.notifyDataReceived id).mayProceed w = true) := by
  unfold notifyDataReceived
  split
  · next hnoData =>
      rw [released_set_iff]
      rintro ⟨⟨hold, -⟩, hnew⟩
      simp [blocks, hnoData] at hold hnew
      exact hnew.1 hold.1 hold.2
  · rw [released_set_iff]
    rintro ⟨⟨hold, -⟩, hnew⟩
    rw [hold] at hnew
    cases hnew

theorem released_addSource_iff (s : Synchronizer) (id w : SourceId) :
    (s.mayProceed w = false ∧ (s.addSource id).mayProceed w = true) ↔ s.OnlyBlocker id w := by
  rw [addSource, released_set_iff]
  simp [blocks]

/-- A source whose flush starts goes on blocking its own next flush. -/
theorem released_notifyFlushStarted_iff (s : Synchronizer) (id w : SourceId) :
    (s.mayProceed w = false ∧ (s.notifyFlushStarted id).mayProceed w = true) ↔
      id ≠ w ∧ s.OnlyBlocker id w := by
  rw [notifyFlushStarted, released_set_iff]
  simp [blocks, and_comm]

theorem wakesReleased_iff (s : Synchronizer) (method : SourceMethod) (id w : SourceId) :
    s.WakesReleased method id w ↔ ¬s.ResetsOnlyBlocker method id w := by
  have hreleased : s.WakesReleased method id w ↔
      (notifies method = false →
        ¬(s.mayProceed w = false ∧ (s.call method id).mayProceed w = true)) := by
    unfold WakesReleased
    cases notifies method <;> simp
  rw [hreleased]
  cases method with
  | removeSource | notifyFlushCompleted | notifyDataPushed =>
      simp [notifies, ResetsOnlyBlocker]
  | notifyDataReceived =>
      apply iff_of_true (fun _ ↦ s.not_released_notifyDataReceived id w)
      simp [ResetsOnlyBlocker]
  | addSource =>
      rw [call, released_addSource_iff]
      simp [notifies, ResetsOnlyBlocker]
  | notifyFlushStarted =>
      rw [call, released_notifyFlushStarted_iff]
      simp [notifies, ResetsOnlyBlocker]

/-- Source 1 has received data behind a flush, so source 2 has to wait for it. -/
def flushedWithData : Synchronizer :=
  let flushed := ((({} : Synchronizer).addSource 1).notifyFlushStarted 1).notifyFlushCompleted 1
  flushed.notifyDataReceived 1

/-- Another flush of source 1 lets source 2 go on, which nobody tells it. -/
theorem released_silently : ¬∀ (s : Synchronizer) (method : SourceMethod) (id w : SourceId),
    s.WakesReleased method id w := by
  intro h
  have hwakes := h flushedWithData .notifyFlushStarted 1 2 (by decide) (by decide)
  exact absurd hwakes (by decide)

end Synchronizer

end RialtoGStreamer.Flush
