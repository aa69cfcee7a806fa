import Mathlib.Tactic.Common
import RialtoGStreamer.MediaPlayerClient.Model

/-!
# The flush and data synchronizer

`FlushAndDataSynchronizer` under its mutex: each method is one step on the map
of the sources. The methods index the map with `operator[]`, which inserts a
source that is not there.
-/

namespace RialtoGStreamer.Flush

open Library MediaPlayerClient

inductive FlushState where
  | idle
  | flushing
  | flushed
  deriving DecidableEq

inductive DataState where
  | noData
  | dataReceived
  | dataPushed
  deriving DecidableEq

structure SourceState where
  flushState : FlushState := .idle
  dataState : DataState := .noData
  deriving DecidableEq

/-- `m_sourceStates`. -/
structure Synchronizer where
  sourceStates : Table SourceId SourceState := ∅

namespace Synchronizer

/-- `m_sourceStates[id]`, for reading. -/
def get (s : Synchronizer) (id : SourceId) : SourceState :=
  (s.sourceStates.lookup id).getD {}

/-- `m_sourceStates[id] = state`. -/
def set (s : Synchronizer) (id : SourceId) (state : SourceState) : Synchronizer :=
  { s with sourceStates := s.sourceStates.insert id state }

def addSource (s : Synchronizer) (id : SourceId) : Synchronizer :=
  s.set id { flushState := .idle, dataState := .noData }

def removeSource (s : Synchronizer) (id : SourceId) : Synchronizer :=
  { s with sourceStates := s.sourceStates.erase id }

def notifyFlushStarted (s : Synchronizer) (id : SourceId) : Synchronizer :=
  s.set id { flushState := .flushing, dataState := .noData }

def notifyFlushCompleted (s : Synchronizer) (id : SourceId) : Synchronizer :=
  s.set id { s.get id with flushState := .flushed }

def notifyDataReceived (s : Synchronizer) (id : SourceId) : Synchronizer :=
  if (s.get id).dataState = .noData then s.set id { s.get id with dataState := .dataReceived }
  else s.set id (s.get id)

def notifyDataPushed (s : Synchronizer) (id : SourceId) : Synchronizer :=
  s.set id { flushState := .idle, dataState := .dataPushed }

/-- The entry that `waitIfRequired` of `id` waits to see gone. -/
def blocks (id : SourceId) (entry : SourceId × SourceState) : Bool :=
  (entry.1 = id ∧ entry.2.flushState = .flushing) ∨
    (entry.2.flushState ≠ .idle ∧ entry.2.dataState = .dataReceived)

/-- The predicate of the wait in `waitIfRequired`. -/
def mayProceed (s : Synchronizer) (id : SourceId) : Bool :=
  s.sourceStates.entries.all fun entry ↦ !blocks id (entry.1, entry.2)

def isAnySourceFlushing (s : Synchronizer) : Bool :=
  s.sourceStates.entries.any fun entry ↦ entry.2.flushState = .flushing

@[simp] theorem get_set (s : Synchronizer) (j id : SourceId) (state : SourceState) :
    (s.set id state).get j = if j = id then state else s.get j := by
  by_cases h : j = id <;> simp [get, set, h]

/-- What each method does to the flush state of a source. -/
theorem flushState_addSource (s : Synchronizer) (j id : SourceId) :
    ((s.addSource id).get j).flushState = if j = id then .idle else (s.get j).flushState := by
  by_cases h : j = id <;> simp [addSource, h]

theorem flushState_notifyFlushStarted (s : Synchronizer) (j id : SourceId) :
    ((s.notifyFlushStarted id).get j).flushState =
      if j = id then .flushing else (s.get j).flushState := by
  by_cases h : j = id <;> simp [notifyFlushStarted, h]

theorem flushState_notifyFlushCompleted (s : Synchronizer) (j id : SourceId) :
    ((s.notifyFlushCompleted id).get j).flushState =
      if j = id then .flushed else (s.get j).flushState := by
  by_cases h : j = id <;> simp [notifyFlushCompleted, h]

theorem flushState_notifyDataReceived (s : Synchronizer) (j id : SourceId) :
    ((s.notifyDataReceived id).get j).flushState = (s.get j).flushState := by
  unfold notifyDataReceived
  split <;> by_cases h : j = id <;> simp [h]

theorem flushState_notifyDataPushed (s : Synchronizer) (j id : SourceId) :
    ((s.notifyDataPushed id).get j).flushState =
      if j = id then .idle else (s.get j).flushState := by
  by_cases h : j = id <;> simp [notifyDataPushed, h]

theorem lookup_of_flushing {s : Synchronizer} {id : SourceId}
    (h : (s.get id).flushState = .flushing) : s.sourceStates.lookup id = some (s.get id) := by
  cases hid : s.sourceStates.lookup id with
  | none => simp [get, hid] at h
  | some state => simp [get, hid]

theorem get_eq_of_lookup {s : Synchronizer} {id : SourceId} {state : SourceState}
    (h : s.sourceStates.lookup id = some state) : s.get id = state := by
  rw [get, h]
  rfl

/-- The wait is over when no source blocks it; one without an entry does not. -/
theorem mayProceed_iff {s : Synchronizer} {id : SourceId} :
    s.mayProceed id = true ↔ ∀ j, blocks id (j, s.get j) = false := by
  constructor
  · intro h j
    cases hj : s.sourceStates.lookup j with
    | none => simp [blocks, get, hj]
    | some state =>
        have hentry := List.all_eq_true.mp h ⟨j, state⟩ (AList.mem_lookup_iff.mp hj)
        rw [get_eq_of_lookup hj]
        simpa using hentry
  · intro h
    apply List.all_eq_true.mpr
    rintro ⟨j, state⟩ hmem
    have hj := h j
    rw [get_eq_of_lookup (AList.mem_lookup_iff.mpr hmem)] at hj
    simpa using hj

/-- A flushing source blocks its own next flush. -/
theorem mayProceed_of_flushing {s : Synchronizer} {id : SourceId}
    (h : (s.get id).flushState = .flushing) : s.mayProceed id = false := by
  rw [← Bool.not_eq_true, mayProceed_iff]
  intro hfree
  have hid := hfree id
  simp [blocks, h] at hid

theorem isAnySourceFlushing_iff {s : Synchronizer} :
    s.isAnySourceFlushing = true ↔ ∃ id, (s.get id).flushState = .flushing := by
  constructor
  · intro h
    obtain ⟨⟨id, state⟩, hmem, hstate⟩ := List.any_eq_true.mp h
    have hid : s.sourceStates.lookup id = some state := AList.mem_lookup_iff.mpr hmem
    exact ⟨id, by simpa [get, hid] using hstate⟩
  · rintro ⟨id, hid⟩
    have hmem := AList.mem_lookup_iff.mp (lookup_of_flushing hid)
    exact List.any_eq_true.mpr ⟨⟨id, s.get id⟩, hmem, by simp [hid]⟩

end Synchronizer

end RialtoGStreamer.Flush
