import Mathlib.Data.List.Nodup
import Mathlib.Data.List.Perm.Subperm
import Mathlib.Tactic.Common
import RialtoGStreamer.Library.Places
import RialtoGStreamer.NeedData.Model

/-!
# Every request is answered once

A request is in exactly one place: in the backend queue, in the hands of the
worker, with a puller, or among the handled answers. Nothing but the handling
of an answer calls `haveData`, and what decides about the call is whether the
source is attached at that moment.
-/

namespace RialtoGStreamer.NeedData

open Library MediaPlayerClient

/-- The request that a message carries. -/
@[simp] def Message.request : Message → Option Request
  | .needData r | .haveData _ r => some r
  | .attachSource _ _ | .removeSource _ | .other => none

@[simp] def WorkerPc.requests : WorkerPc → List Request
  | .failing r => [r]
  | .idle | .removing _ => []

@[simp] def Puller.requests (p : Puller) : List Request :=
  p.queue ++ p.busy.toList

/-- How often a request is on its way. -/
def State.underway (s : State) (r : Request) : ℕ :=
  (s.backendQueue.filterMap Message.request).count r + s.worker.requests.count r +
    total (fun p ↦ p.requests.count r) s.pullers

structure Kept (s : State) : Prop where
  conserved : ∀ r, s.underway r + (s.answers.map Answer.request).count r = s.accepted.count r
  addressed : ∀ id puller, s.attachedSources.lookup id = some puller →
    puller < s.pullers.length
  steady : ∀ r ∈ s.steady, (s.attachedSources.lookup r.sourceId).isSome = true
  steadyAnswer : ∀ a ∈ s.answers, a.steady = true → a.attached = true
  called : s.haveData = (s.answers.filter (·.attached)).map
    fun a ↦ (a.status, a.request.needDataRequestId)

theorem total_post {pullers : List Puller} {puller : ℕ} {p : Puller}
    (hp : pullers[puller]? = some p) (r r' : Request) :
    total (fun p ↦ p.requests.count r')
        (pullers.set puller { p with queue := p.queue ++ [r] }) =
      total (fun p ↦ p.requests.count r') pullers + [r].count r' := by
  have htotal := total_set (f := fun p : Puller ↦ p.requests.count r') hp
    { p with queue := p.queue ++ [r] }
  simp only [Puller.requests, List.count_append] at htotal ⊢
  omega

theorem count_front (m : Message) (rest : List Message) (r : Request) :
    ((m :: rest).filterMap Message.request).count r =
      (rest.filterMap Message.request).count r + m.request.toList.count r := by
  cases hm : m.request with
  | none => simp [List.filterMap_cons_none hm]
  | some r' =>
      rw [List.filterMap_cons_some hm]
      simp [List.count_cons]

/-! ## The messages of the backend queue -/

section

variable {s : State} {m : Message} {rest : List Message}

/-- Without the message in front, which still carries its request. -/
theorem Kept.count_rest (h : Kept s) (hworker : s.worker = .idle)
    (hqueue : s.backendQueue = m :: rest) (r : Request) :
    (rest.filterMap Message.request).count r + m.request.toList.count r +
      total (fun p ↦ p.requests.count r) s.pullers + (s.answers.map Answer.request).count r =
        s.accepted.count r := by
  have hc := h.conserved r
  simpa [State.underway, hqueue, hworker, count_front] using hc

/-- A message without a request is gone, and nothing else changes. -/
theorem kept_drop (h : Kept s) (hworker : s.worker = .idle)
    (hqueue : s.backendQueue = m :: rest) (hm : m.request = none) :
    Kept { s with backendQueue := rest } := by
  refine ⟨fun r ↦ ?_, h.addressed, h.steady, h.steadyAnswer, h.called⟩
  have hc := h.count_rest hworker hqueue r
  rw [hm] at hc
  simpa [State.underway, hworker] using hc

theorem kept_needData {r : Request} (h : Kept s) (hworker : s.worker = .idle)
    (hqueue : s.backendQueue = .needData r :: rest) :
    Kept ({ s with backendQueue := rest }.handle (.needData r)) := by
  simp only [State.handle]
  cases hid : s.attachedSources.lookup r.sourceId with
  | none =>
      refine ⟨fun r' ↦ ?_, h.addressed, h.steady, h.steadyAnswer, h.called⟩
      have hc := h.count_rest hworker hqueue r'
      simp only [Message.request, Option.toList_some] at hc
      simp only [State.underway, WorkerPc.requests]
      omega
  | some puller =>
      obtain ⟨p, hp⟩ : ∃ p, s.pullers[puller]? = some p :=
        ⟨_, List.getElem?_eq_getElem (h.addressed r.sourceId puller hid)⟩
      simp only [State.requestPullBuffer, hp]
      refine ⟨fun r' ↦ ?_, fun id puller' hid' ↦ ?_, fun r' hr' ↦ ?_, h.steadyAnswer, h.called⟩
      · have hc := h.count_rest hworker hqueue r'
        simp only [Message.request, Option.toList_some] at hc
        simp only [State.underway, hworker, WorkerPc.requests, List.count_nil,
          total_post hp r r']
        omega
      · simpa using h.addressed id puller' hid'
      · rcases List.mem_cons.mp hr' with rfl | hr'
        · simp [hid]
        · exact h.steady r' hr'

theorem kept_haveData {status : MediaSourceStatus} {r : Request} (h : Kept s)
    (hworker : s.worker = .idle) (hqueue : s.backendQueue = .haveData status r :: rest) :
    Kept ({ s with backendQueue := rest }.handle (.haveData status r)) := by
  refine ⟨fun r' ↦ ?_, h.addressed, h.steady, fun a ha hs ↦ ?_, ?_⟩
  · have hc := h.count_rest hworker hqueue r'
    simp only [Message.request, Option.toList_some] at hc
    simp only [State.handle, State.underway, hworker, WorkerPc.requests, List.count_nil,
      List.map_append, List.map_cons, List.map_nil, List.count_append]
    omega
  · rcases List.mem_append.mp ha with ha | ha
    · exact h.steadyAnswer a ha hs
    · obtain rfl := List.mem_singleton.mp ha
      exact h.steady r (by simpa using hs)
  · cases hattached : (s.attachedSources.lookup r.sourceId).isSome <;>
      simp [State.handle, hattached, h.called]

theorem kept_attachSource {id : SourceId} {result : Bool} (h : Kept s)
    (hworker : s.worker = .idle) (hqueue : s.backendQueue = .attachSource id result :: rest) :
    Kept ({ s with backendQueue := rest }.handle (.attachSource id result)) := by
  simp only [State.handle]
  split
  · refine ⟨fun r ↦ ?_, fun id' puller hid' ↦ ?_, fun r hr ↦ ?_, h.steadyAnswer, h.called⟩
    · simpa [State.underway, hworker] using h.count_rest hworker hqueue r
    · rw [List.length_append, List.length_singleton]
      rw [Table.lookup_insert] at hid'
      split at hid'
      · cases hid'
        omega
      · have := h.addressed id' puller hid'
        omega
    · rw [Table.lookup_insert]
      split
      · rfl
      · exact h.steady r hr
  · exact kept_drop h hworker hqueue rfl

theorem kept_removeSource {id : SourceId} (h : Kept s) (hworker : s.worker = .idle)
    (hqueue : s.backendQueue = .removeSource id :: rest) :
    Kept ({ s with backendQueue := rest }.handle (.removeSource id)) := by
  simp only [State.handle]
  split
  · refine ⟨fun r ↦ ?_, fun id' puller hid' ↦ ?_, fun r hr ↦ ?_, h.steadyAnswer, h.called⟩
    · simpa [State.underway] using h.count_rest hworker hqueue r
    · rw [Table.lookup_erase] at hid'
      split at hid'
      · cases hid'
      · exact h.addressed id' puller hid'
    · obtain ⟨hr, hne⟩ := List.mem_filter.mp hr
      rw [Table.lookup_erase, if_neg (by simpa using hne)]
      exact h.steady r hr
  · exact kept_drop h hworker hqueue rfl

theorem kept_handle (h : Kept s) (hworker : s.worker = .idle)
    (hqueue : s.backendQueue = m :: rest) : Kept ({ s with backendQueue := rest }.handle m) := by
  cases m with
  | needData r => exact kept_needData h hworker hqueue
  | haveData status r => exact kept_haveData h hworker hqueue
  | attachSource id result => exact kept_attachSource h hworker hqueue
  | removeSource id => exact kept_removeSource h hworker hqueue
  | other => exact kept_drop h hworker hqueue rfl

end

/-! ## The other steps -/

theorem underway_post (s : State) (m : Message) (r : Request) :
    (s.post m).underway r = s.underway r + m.request.toList.count r := by
  have hm : ([m].filterMap Message.request).count r = m.request.toList.count r := by
    simp [count_front]
  simp only [State.underway, State.post, List.filterMap_append, List.count_append, hm]
  omega

/-- A message without a request is posted. -/
theorem kept_post {s : State} {m : Message} (h : Kept s) (hm : m.request = none) :
    Kept (s.post m) := by
  refine ⟨fun r ↦ ?_, h.addressed, h.steady, h.steadyAnswer, h.called⟩
  rw [underway_post, hm]
  exact h.conserved r

theorem kept_notify {s : State} (h : Kept s) (r : Request) :
    Kept { s.post (.needData r) with accepted := s.accepted ++ [r] } := by
  refine ⟨fun r' ↦ ?_, h.addressed, h.steady, h.steadyAnswer, h.called⟩
  have hc := h.conserved r'
  have hu := underway_post s (.needData r) r'
  simp only [Message.request, Option.toList_some] at hu
  rw [List.count_append, ← hc]
  change (s.post (.needData r)).underway r' + _ = _
  rw [hu]
  exact Nat.add_right_comm _ _ _

theorem kept_postError {s : State} {r : Request} (h : Kept s) (hworker : s.worker = .failing r) :
    Kept { s.post (.haveData .error r) with worker := .idle } := by
  refine ⟨fun r' ↦ ?_, h.addressed, h.steady, h.steadyAnswer, h.called⟩
  have hc := h.conserved r'
  have hu := underway_post s (.haveData .error r) r'
  simp only [State.underway, State.post, hworker, WorkerPc.requests, Message.request,
    Option.toList_some, List.count_nil] at hc hu ⊢
  omega

theorem kept_take {s : State} {puller : ℕ} {r : Request} {rest : List Request} (h : Kept s)
    (hp : s.pullers[puller]? = some ⟨r :: rest, none⟩) :
    Kept { s with pullers := s.pullers.set puller ⟨rest, some r⟩ } := by
  refine ⟨fun r' ↦ ?_, fun id puller' hid ↦ ?_, h.steady, h.steadyAnswer, h.called⟩
  · have hc := h.conserved r'
    have htotal := total_set (f := fun p : Puller ↦ p.requests.count r') hp ⟨rest, some r⟩
    simp only [Puller.requests, Option.toList_some, Option.toList_none, List.append_nil,
      List.count_append, List.count_cons, List.count_nil] at htotal
    simp only [State.underway, Puller.requests, List.count_append] at hc ⊢
    omega
  · simpa using h.addressed id puller' hid

theorem kept_finish {s : State} {puller : ℕ} {queue : List Request} {r : Request}
    {status : MediaSourceStatus} (h : Kept s) (hp : s.pullers[puller]? = some ⟨queue, some r⟩) :
    Kept { s.post (.haveData status r) with pullers := s.pullers.set puller ⟨queue, none⟩ } := by
  refine ⟨fun r' ↦ ?_, fun id puller' hid ↦ ?_, h.steady, h.steadyAnswer, h.called⟩
  · have hc := h.conserved r'
    have hu := underway_post s (.haveData status r) r'
    have htotal := total_set (f := fun p : Puller ↦ p.requests.count r') hp ⟨queue, none⟩
    simp only [Puller.requests, Option.toList_some, Option.toList_none, List.append_nil,
      List.count_append] at htotal
    simp only [State.underway, State.post, Puller.requests, List.count_append,
      Message.request, Option.toList_some] at hc hu ⊢
    omega
  · simpa using h.addressed id puller' hid

theorem kept_step {s s' : State} {e : Event} (h : Kept s) (hstep : s.step e = some s') :
    Kept s' := by
  cases e with
  | notifyNeedMediaData r =>
      cases hstep
      exact kept_notify h r
  | call operation =>
      cases operation with
      | needData | haveData => cases hstep
      | attachSource | removeSource | other =>
          cases hstep
          exact kept_post h rfl
  | handle =>
      simp only [State.step] at hstep
      split at hstep <;> cases hstep
      next hworker hqueue => exact kept_handle h hworker hqueue
  | postError =>
      simp only [State.step] at hstep
      split at hstep <;> cases hstep
      next r hworker => exact kept_postError h hworker
  | destroyed =>
      simp only [State.step] at hstep
      split at hstep
      · next puller hworker =>
          split at hstep <;> cases hstep
          refine ⟨fun r ↦ ?_, h.addressed, h.steady, h.steadyAnswer, h.called⟩
          simpa [State.underway, hworker] using h.conserved r
      · cases hstep
  | take puller =>
      simp only [State.step] at hstep
      split at hstep <;> cases hstep
      next r rest hp => exact kept_take h hp
  | finish puller status =>
      simp only [State.step] at hstep
      split at hstep <;> cases hstep
      next queue r hp => exact kept_finish h hp

/-! ## Runs -/

/-- What becomes of the accepted requests. -/
structure AnsweredOnce (s : State) : Prop where
  atMostOnce : ∀ r ∈ s.accepted, (s.haveData.map Prod.snd).count r.needDataRequestId ≤ 1
  drained : s.drained → ∀ r ∈ s.accepted, ∃ a ∈ s.answers, a.request = r ∧
    (a.steady = true → (s.haveData.map Prod.snd).count r.needDataRequestId = 1) ∧
    (a.attached = false → (s.haveData.map Prod.snd).count r.needDataRequestId = 0)

/-- With distinct ids an answer is the only one that can call under its id. -/
theorem count_called {answers : List Answer}
    (hnodup : (answers.map (·.request.needDataRequestId)).Nodup) {a : Answer}
    (ha : a ∈ answers) :
    ((answers.filter (·.attached)).map (·.request.needDataRequestId)).count
      a.request.needDataRequestId = if a.attached then 1 else 0 := by
  have hsub : ((answers.filter (·.attached)).map (·.request.needDataRequestId)).Nodup :=
    hnodup.sublist (List.filter_sublist.map _)
  rw [hsub.count]
  refine if_congr ⟨fun hmem ↦ ?_, fun hattached ↦ ?_⟩ rfl rfl
  · obtain ⟨b, hb, heq⟩ := List.mem_map.mp hmem
    obtain ⟨hb, hattached⟩ := List.mem_filter.mp hb
    rwa [List.inj_on_of_nodup_map hnodup hb ha heq] at hattached
  · exact List.mem_map_of_mem (List.mem_filter.mpr ⟨ha, hattached⟩)

theorem Kept.answeredOnce {s : State} (h : Kept s)
    (hdistinct : (s.accepted.map Request.needDataRequestId).Nodup) : AnsweredOnce s := by
  have hle : ∀ r, (s.answers.map Answer.request).count r ≤ s.accepted.count r := by
    intro r
    have := h.conserved r
    omega
  have hnodup : (s.answers.map (·.request.needDataRequestId)).Nodup := by
    obtain ⟨l, hperm, hsub⟩ : List.Subperm (s.answers.map Answer.request) s.accepted :=
      List.subperm_ext_iff.mpr fun r _ ↦ hle r
    have hids := (hperm.map Request.needDataRequestId).nodup_iff.mp (hdistinct.sublist (hsub.map _))
    rwa [List.map_map] at hids
  have hcalls : s.haveData.map Prod.snd =
      (s.answers.filter (·.attached)).map (·.request.needDataRequestId) := by
    rw [h.called, List.map_map]
    rfl
  refine ⟨fun r _ ↦ ?_, fun hdrained r hr ↦ ?_⟩
  · rw [hcalls]
    exact List.nodup_iff_count_le_one.mp (hnodup.sublist (List.filter_sublist.map _)) _
  · obtain ⟨hqueue, hworker, hpullers⟩ := hdrained
    have hzero : s.underway r = 0 := by
      have htotal : total (fun p ↦ p.requests.count r) s.pullers = 0 :=
        total_eq_zero fun p hp ↦ by simp [hpullers p hp]
      rw [State.underway, hqueue, hworker, htotal]
      rfl
    have hpos : 0 < (s.answers.map Answer.request).count r := by
      have hc := h.conserved r
      have := List.count_pos_iff.mpr hr
      omega
    obtain ⟨a, ha, rfl⟩ := List.mem_map.mp (List.count_pos_iff.mp hpos)
    refine ⟨a, ha, rfl, fun hsteady ↦ ?_, fun hattached ↦ ?_⟩
    · rw [hcalls, count_called hnodup ha, h.steadyAnswer a ha hsteady]
      rfl
    · rw [hcalls, count_called hnodup ha, hattached]
      rfl

/-- Whatever the order in which requests, operations and pulls are handled. -/
theorem answeredOnce_of_run {es : List Event} {s : State} (hrun : machine.run {} es = some s)
    (hdistinct : (s.accepted.map Request.needDataRequestId).Nodup) : AnsweredOnce s := by
  refine Kept.answeredOnce ?_ hdistinct
  refine machine.invariant (fun s e s' h hstep ↦ kept_step h hstep) ?_ hrun
  exact ⟨by simp [State.underway], by simp, by simp, by simp, rfl⟩

/-- One request that is pulled, and one whose source leaves before its answer. -/
def pullAndRemove : List Event :=
  [.call (.attachSource 1 true), .notifyNeedMediaData ⟨1, 3, 7⟩, .handle, .handle, .take 0,
    .finish 0 .ok, .handle, .notifyNeedMediaData ⟨1, 3, 8⟩, .call (.removeSource 1), .handle,
    .handle, .take 0, .finish 0 .noAvailableSamples, .destroyed, .handle]

theorem answeredOnce_of_run_pullAndRemove : ∃ s, machine.run {} pullAndRemove = some s ∧
    s.haveData = [(.ok, 7)] ∧ AnsweredOnce s := by
  obtain ⟨s, hs⟩ : ∃ s, machine.run {} pullAndRemove = some s :=
    Option.isSome_iff_exists.mp (by decide)
  have hend : (machine.run {} pullAndRemove).map
      (fun s ↦ (s.haveData, s.accepted.map Request.needDataRequestId)) =
      some ([(.ok, 7)], [7, 8]) := by decide
  rw [hs] at hend
  simp only [Option.map_some, Option.some.injEq, Prod.mk.injEq] at hend
  exact ⟨s, hs, hend.1, answeredOnce_of_run hs (by simp [hend.2])⟩

end RialtoGStreamer.NeedData
