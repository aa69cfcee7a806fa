import RialtoGStreamer.MessageQueue.Shutdown

/-!
# Every accepted message is delivered or skipped, once

The history of a message follows its position: accepted, queued, in the hand of
the worker, handled or skipped. Reading the positions in that order gives back
the order of acceptance, as long as no message is taken after one was skipped
and none is skipped while the worker holds one; both come from the stage of the
stop.
-/

namespace RialtoGStreamer.MessageQueue

open Library

variable {τ μ : Type*} [DecidableEq τ]

/-- The accepted message in a queue entry. -/
@[simp] def Message.entry : Message μ → Option (ℕ × μ)
  | .posted k m => some (k, m)
  | .halt _ => none

/-- The accepted message that is popped and not yet handled. -/
@[simp] def WorkerPc.inHand : WorkerPc μ → List (ℕ × μ)
  | .popped (.posted k m) => [(k, m)]
  | _ => []

structure Conserved (s : State τ μ) : Prop where
  accounted :
    s.accepted = s.handled ++ s.worker.inHand ++ s.skipped ++ s.queue.filterMap Message.entry
  numbered : s.accepted.map Prod.fst = List.range s.accepted.length

omit [DecidableEq τ] in
/-- The worker locks the queue for another message only before anything is skipped. -/
theorem Stage.skipped_of_locked {s : State τ μ} (h : Stage s) (howned : Owned s)
    (hw : s.worker = .locked) : s.skipped = [] := by
  have hidle : s.pc .worker = .idle := by
    rcases howned.nested with hidle | ⟨k, m, hhandling⟩
    · exact hidle
    · rw [hw] at hhandling
      cases hhandling
  cases h with
  | notIssued _ _ h => exact h.skipped
  | stopping t phase _ _ hpc _ h =>
      cases phase with
      | testRunning | compareThread => exact Open.skipped h
      | refuse => exact h.2
      | lock | refuseLocked => exact h.2.skipped
      | halt | detach | push | await | join => exact h.2.1
  | clearing t locked _ _ hpc _ h =>
      cases t with
      | worker => simp [hidle] at hpc
      | client t => exact h.1
  | stopped t _ _ _ h =>
      rcases h.workerOut with hleft | ⟨-, htesting | ⟨k, m, hhandling⟩⟩ <;> simp_all

omit [DecidableEq τ] in
theorem Stage.inHand_of_clearing {s : State τ μ} (h : Stage s) (howned : Owned s)
    {t : Thread τ} {stop : Bool} (hpc : s.pc t = .clearing stop true) (hq : s.queue ≠ []) :
    s.worker.inHand = [] := by
  obtain ⟨-, -, -, -, hfacts⟩ := h.of_clearing hpc
  cases t with
  | worker =>
      rcases howned.nested with hidle | ⟨k, m, hhandling⟩
      · simp [hpc] at hidle
      · simp [hhandling]
  | client t => exact absurd hfacts.2.2.1 hq

theorem conserved_move {s s' : State τ μ} {e : Event τ μ} (h : Conserved s) (hstage : Stage s)
    (howned : Owned s) (hm : Move s e s') : Conserved s' := by
  obtain ⟨hacc, hnum⟩ := h
  cases hm with
  | post hm =>
      cases hm with
      | accept hp =>
          constructor
          · simp [hacc]
          · simp [hnum, List.range_succ]
      | _ => exact ⟨hacc, hnum⟩
  | work hm =>
      cases hm with
      | pop hw hq =>
          have hskipped := hstage.skipped_of_locked howned hw
          refine ⟨?_, hnum⟩
          simpa [hw, hq, hskipped] using hacc
      | popHalt hw hq =>
          refine ⟨?_, hnum⟩
          simpa [hw, hq, List.filterMap_cons] using hacc
      | handle hw =>
          refine ⟨?_, hnum⟩
          simpa [hw] using hacc
      | lock hw | wait hw | handleHalt hw | finish hw | runHalt hw | signalHalt hw | again hw
      | leave hw =>
          refine ⟨?_, hnum⟩
          simpa [hw] using hacc
  | beginStop he hp hmay => exact ⟨hacc, hnum⟩
  | beginClear he hp hmay => exact ⟨hacc, hnum⟩
  | stop hp hm =>
      cases hm with
      | push =>
          refine ⟨?_, hnum⟩
          simpa [List.filterMap_cons] using hacc
      | _ => exact ⟨hacc, hnum⟩
  | clear hp hm =>
      cases hm with
      | skip hq =>
          have hhand := hstage.inHand_of_clearing howned hp (by simp [hq])
          refine ⟨?_, hnum⟩
          simpa [hhand, hq] using hacc
      | skipHalt hq =>
          refine ⟨?_, hnum⟩
          simpa [hq, List.filterMap_cons] using hacc
      | lock | done => exact ⟨hacc, hnum⟩

/-- What holds after every step, as long as there is at most one stop. -/
structure Intact (s : State τ μ) : Prop where
  owned : Owned s
  stage : s.stops.length ≤ 1 → Stage s
  conserved : s.stops.length ≤ 1 → Conserved s

theorem intact_move {s s' : State τ μ} {e : Event τ μ} (h : Intact s)
    (hclear : ∀ t, e ≠ .begin t .clear) (hm : Move s e s') : Intact s' := by
  have hmono : s.stops.length ≤ s'.stops.length := (prefix_stops_of hm).length_le
  refine ⟨owned_move h.owned hm, fun hone ↦ ?_, fun hone ↦ ?_⟩
  · exact stage_move (h.stage (Nat.le_trans hmono hone)) h.owned hclear hm hone
  · have hone' := Nat.le_trans hmono hone
    exact conserved_move (h.conserved hone') (h.stage hone') h.owned hm

omit [DecidableEq τ] in
theorem intact_started : Intact (State.started τ μ) := by
  refine ⟨⟨.inl rfl, by simp [State.started, Pc.holds], by simp [State.started]⟩, fun _ ↦ ?_,
    fun _ ↦ ⟨rfl, rfl⟩⟩
  exact .notIssued rfl (fun _ ↦ rfl) ⟨rfl, rfl, ⟨by simp [State.started], rfl, rfl⟩, rfl, rfl⟩

theorem intact_run {es : List (Event τ μ)} {s : State τ μ}
    (hclear : ∀ t, .begin t .clear ∉ es)
    (hrun : (machine τ μ).run (State.started τ μ) es = some s) : Intact s := by
  refine (machine τ μ).invariant_of_meets (C := fun _ e ↦ ∀ t, e ≠ .begin t .clear)
    (fun s e s' h hc hstep ↦ intact_move h hc (step_move hstep)) intact_started ?_ hrun
  refine (machine τ μ).meets_of_forall_mem (fun e he t heq ↦ ?_) _
  exact hclear t (heq ▸ he)

/-- What has become of the accepted messages once the stop of `t` has returned
and the worker has left. -/
structure Delivered (s : State τ μ) (t : Thread τ) : Prop where
  partition : s.accepted = s.handled ++ s.skipped
  once : ∀ k < s.accepted.length,
    (s.handled.map Prod.fst).count k + (s.skipped.map Prod.fst).count k = 1
  inOrder : s.handled <+: s.accepted
  stopElsewhere : t ≠ .worker → s.skipped = []

theorem delivered_of_stopped {es : List (Event τ μ)} {s : State τ μ} {t : Thread τ}
    (hrun : (machine τ μ).run (State.started τ μ) es = some s)
    (hclear : ∀ u, .begin u .clear ∉ es) (hone : s.stops = [t]) (hstopped : s.stopped = [t])
    (hleft : s.worker = .left) : Delivered s t := by
  obtain ⟨-, hstage, hconserved⟩ := intact_run hclear hrun
  have hlen : s.stops.length ≤ 1 := by simp [hone]
  have hshut : Shut s t := by
    cases hstage hlen with
    | notIssued h0 => simp [hone] at h0
    | stopping u phase _ h1 => simp [hstopped] at h1
    | clearing u locked _ h1 => simp [hstopped] at h1
    | stopped u _ h1 _ h =>
        obtain rfl : t = u := by simpa [hstopped] using h1
        exact h
  obtain ⟨hacc, hnum⟩ := hconserved hlen
  have hpart : s.accepted = s.handled ++ s.skipped := by
    simpa [hleft, hshut.empty] using hacc
  refine ⟨hpart, fun k hk ↦ ?_, ⟨s.skipped, hpart.symm⟩, hshut.skipped⟩
  have hcount : (s.accepted.map Prod.fst).count k = 1 := by
    rw [hnum, List.nodup_range.count, if_pos (List.mem_range.mpr hk)]
  rwa [hpart, List.map_append, List.count_append] at hcount

/-- A message posted before another thread stops the queue. -/
def postThenStop : List (Event ℕ ℕ) :=
  [.begin (.client 0) (.postMessage 7)] ++ List.replicate 4 (.advance (.client 0)) ++
    [.begin (.client 1) .stop] ++ List.replicate 5 (.advance (.client 1)) ++
    List.replicate 11 .work ++ List.replicate 4 (.advance (.client 1))

theorem delivered_of_stopped_postThenStop :
    ∃ s, (machine ℕ ℕ).run (State.started ℕ ℕ) postThenStop = some s ∧
      s.handled = [(0, 7)] ∧ Delivered s (.client 1) := by
  obtain ⟨s, hs⟩ : ∃ s, (machine ℕ ℕ).run (State.started ℕ ℕ) postThenStop = some s :=
    Option.isSome_iff_exists.mp (by decide)
  have hend : ((machine ℕ ℕ).run (State.started ℕ ℕ) postThenStop).map
      (fun s ↦ (s.stops, s.stopped, s.worker, s.handled)) =
        some ([.client 1], [.client 1], .left, [(0, 7)]) := by decide
  rw [hs] at hend
  simp only [Option.map_some, Option.some.injEq, Prod.mk.injEq] at hend
  obtain ⟨hone, hstopped, hleft, hhandled⟩ := hend
  refine ⟨s, hs, hhandled, delivered_of_stopped hs (fun u ↦ ?_) hone hstopped hleft⟩
  simp [postThenStop]

end RialtoGStreamer.MessageQueue
