import Mathlib.Data.List.Range
import Mathlib.Data.List.Sort
import RialtoGStreamer.Library.Machine
import RialtoGStreamer.PullMode.Moves

/-!
# Conservation of samples

An iteration of the puller pops whatever is in front by then. As long as the
queue has not been cleared since the iteration obtained its sample, that sample
is still in front, and every sample leaves the queue for a reason of its own.
-/

namespace RialtoGStreamer.PullMode

open Library

/-- The sample left for a reason that concerns it: it was cleared after it
arrived, or it is the one that the iteration obtained, and in the history of
`addSegment` if that was the reason to pop. -/
def Departure.Legitimate (given : List ℕ) (d : Departure) : Prop :=
  match d.cause with
  | .cleared arrived => d.sample < arrived
  | .popped obtained outcome =>
      d.sample = obtained ∧ (outcome = .given → obtained ∈ given)

/-- Each queued sample is given at most once and in the order of arrival, it is
in the queue until it leaves, and it leaves for a reason of its own. -/
structure Conserved (s : State) : Prop where
  inOrder : s.given.Pairwise (· < ·)
  queued : ∀ k ∈ s.given, k < s.arrived
  complete : s.departures.map (·.sample) ++ s.samples = List.range s.arrived
  departed : ∀ d ∈ s.departures, d.Legitimate s.given

/-- `popSample` does not find a queue that was cleared and filled again since
the iteration obtained its sample. -/
def Undisturbed (s : State) : Event → Prop
  | .popSample => s.overtaken = true → s.samples = []
  | _ => True

theorem Departure.Legitimate.mono {given given' : List ℕ} {d : Departure}
    (h : d.Legitimate given) (hsub : given ⊆ given') : d.Legitimate given' := by
  unfold Legitimate at h ⊢
  split at h
  · exact h
  · exact ⟨h.1, fun ho ↦ hsub (h.2 ho)⟩

/-! ## Moves -/

namespace PullerPc

/-- The sample that the current iteration obtained. -/
def sample : PullerPc → Option ℕ
  | .map _ k | .parse _ k | .add _ k | .pop _ k _ => some k
  | .idle | .loop _ | .front _ | .eos _ | .done _ => none

/-- The sample that was given and is about to be popped. -/
def given : PullerPc → Option ℕ
  | .pop _ k .given => some k
  | _ => none

theorem sample_of_given {pc : PullerPc} {k : ℕ} (h : pc.given = some k) : pc.sample = some k := by
  unfold given at h
  split at h
  · exact h
  · cases h

end PullerPc

/-- What a step does to the queue and its history. -/
inductive Move (s : State) : Event → State → Prop
  | quiet {e : Event} (isEos segmentSet sinkFlush serverFlush timeReset waiting : Bool)
      (pc : PullerPc) (answers : List NeedData.MediaSourceStatus) (he : Undisturbed s e)
      (hsample : pc.sample = s.puller.sample ∨ pc.sample = none)
      (hgiven : pc.given = s.puller.given) :
      Move s e { s with
        isEos := isEos, segmentSet := segmentSet, isSinkFlushOngoing := sinkFlush
        isServerFlushOngoing := serverFlush, isTimeResetOngoing := timeReset
        waiting := waiting, puller := pc, answers := answers }
  | queue {e : Event} (waiting : Bool) (he : Undisturbed s e) :
      Move s e { s with
        waiting := waiting, samples := s.samples ++ [s.arrived], arrived := s.arrived + 1 }
  | clear {e : Event} (isEos segmentSet : Bool) (he : Undisturbed s e) :
      Move s e { s with
        isEos := isEos, segmentSet := segmentSet, isSinkFlushOngoing := true, samples := []
        departures := s.departures ++ s.samples.map fun k ↦ ⟨k, .cleared s.arrived⟩
        overtaken := true }
  | obtain (p : Pull) (k : ℕ) (hpc : s.puller = .front p) (hk : s.samples.head? = some k) :
      Move s .getFrontSample { s with puller := .map p k, overtaken := false }
  | give {status : AddSegmentStatus} (p : Pull) (k : ℕ) (hpc : s.puller = .add p k) :
      Move s (.addSegment status) { s with puller := .pop p k .given, given := s.given ++ [k] }
  | popNothing (p : Pull) (k : ℕ) (outcome : Outcome) (hpc : s.puller = .pop p k outcome)
      (hsamples : s.samples = []) :
      Move s .popSample { s with puller := .loop (p.afterPop outcome) }
  | pop (p : Pull) (k : ℕ) (outcome : Outcome) (j : ℕ) (samples : List ℕ)
      (hpc : s.puller = .pop p k outcome) (hsamples : s.samples = j :: samples) :
      Move s .popSample { s with
        samples := samples
        departures := s.departures ++ [⟨j, .popped k outcome⟩]
        puller := .loop (p.afterPop outcome) }

theorem move_queueBuffer {s : State} {e : Event} (waiting created : Bool) (he : Undisturbed s e) :
    Move s e ({ s with waiting := waiting }.queueBuffer created).2 := by
  unfold State.queueBuffer
  split
  · exact .quiet _ _ _ _ _ _ _ _ he (.inl rfl) rfl
  · split
    · exact .queue _ he
    · exact .quiet _ _ _ _ _ _ _ _ he (.inl rfl) rfl

theorem move_popSample {s : State} {p : Pull} {k : ℕ} {outcome : Outcome}
    (hpc : s.puller = .pop p k outcome) :
    Move s .popSample { s.popSample k outcome with puller := .loop (p.afterPop outcome) } := by
  unfold State.popSample
  split
  · next hsamples => exact .popNothing p k outcome hpc hsamples
  · next j samples hsamples => exact .pop p k outcome j samples hpc hsamples

theorem move_of_pull {s t : State} {e : Event} (h : PullMove s e t) : Move s e t := by
  cases h with
  | begin _ hpc | ready _ hpc | leave _ hpc | nothing _ hpc | isEos _ hpc | noSpace _ _ hpc
  | post _ hpc =>
      exact .quiet _ _ _ _ _ _ _ _ trivial (.inr rfl) (by rw [hpc]; rfl)
  | map _ _ hpc | unmapped _ _ hpc | parse _ _ hpc | unparsed _ _ hpc =>
      exact .quiet _ _ _ _ _ _ _ _ trivial (.inl (by rw [hpc]; rfl)) (by rw [hpc]; rfl)
  | obtain p k hpc _ hk => exact .obtain p k hpc hk
  | give p k _ _ hpc => exact .give p k hpc
  | pop p k outcome hpc => exact move_popSample hpc

theorem move_of_step {s t : State} {e : Event} (h : s.step e = some t) : Move s e t := by
  cases step_move h with
  | queue _ waiting created he =>
      apply move_queueBuffer waiting created
      rcases he with rfl | rfl <;> trivial
  | startFlushing =>
      unfold State.startFlushing
      split
      · exact .quiet _ _ _ _ _ _ _ _ trivial (.inl rfl) rfl
      · exact .clear _ _ trivial
  | pausedToReady => exact .clear _ _ trivial
  | wait | flushServer | stopFlushing | handleFlushCompleted | setEos | setSegment
  | readyToPaused => exact .quiet _ _ _ _ _ _ _ _ trivial (.inl rfl) rfl
  | pull hmove => exact move_of_pull hmove

/-! ## The queue against the history -/

/-- What is known of the sample `k` that the current iteration obtained. -/
structure Obtained (s : State) (k : ℕ) : Prop where
  arrived : k < s.arrived
  front : s.overtaken = false → s.samples.head? = some k
  older : s.overtaken = true → ∀ j ∈ s.samples, k < j
  later : s.puller.given = none → ∀ g ∈ s.given, g < k
  taken : s.puller.given = some k → k ∈ s.given

/-- What holds in every run, whatever the placement of the flushes. -/
structure Ordered (s : State) : Prop where
  complete : s.departures.map (·.sample) ++ s.samples = List.range s.arrived
  inOrder : s.given.Pairwise (· < ·)
  queued : ∀ g ∈ s.given, g < s.arrived
  behind : ∀ g ∈ s.given, ∀ j ∈ s.samples, g < j ∨ s.puller.given = some j ∧ g = j
  obtained : ∀ k, s.puller.sample = some k → Obtained s k

theorem Ordered.conserved_iff {s : State} (h : Ordered s) :
    Conserved s ↔ ∀ d ∈ s.departures, d.Legitimate s.given :=
  ⟨fun hc ↦ hc.departed, fun hd ↦ ⟨h.inOrder, h.queued, h.complete, hd⟩⟩

theorem Ordered.sorted {s : State} (h : Ordered s) : s.samples.Pairwise (· < ·) := by
  have hrange : (s.departures.map (·.sample) ++ s.samples).Pairwise (· < ·) := by
    rw [h.complete]
    exact List.pairwise_lt_range
  exact (List.pairwise_append.mp hrange).2.1

theorem Ordered.lt_arrived {s : State} (h : Ordered s) {j : ℕ} (hj : j ∈ s.samples) :
    j < s.arrived := by
  rw [← List.mem_range, ← h.complete]
  exact List.mem_append_right _ hj

theorem ordered_queue {s : State} (h : Ordered s) (waiting : Bool) :
    Ordered { s with
      waiting := waiting, samples := s.samples ++ [s.arrived], arrived := s.arrived + 1 } := by
  refine ⟨?_, h.inOrder, fun g hg ↦ (h.queued g hg).trans (Nat.lt_succ_self _), ?_, ?_⟩
  · rw [List.range_succ, ← h.complete, List.append_assoc]
  · intro g hg j hj
    rcases List.mem_append.mp hj with hj | hj
    · exact h.behind g hg j hj
    · obtain rfl := List.mem_singleton.mp hj
      exact .inl (h.queued g hg)
  · intro k hk
    have hobtained := h.obtained k hk
    refine ⟨hobtained.arrived.trans (Nat.lt_succ_self _), fun ho ↦ ?_, fun ho j hj ↦ ?_,
      hobtained.later, hobtained.taken⟩
    · simp [hobtained.front ho]
    · rcases List.mem_append.mp hj with hj | hj
      · exact hobtained.older ho j hj
      · obtain rfl := List.mem_singleton.mp hj
        exact hobtained.arrived

theorem ordered_clear {s : State} (h : Ordered s) (isEos segmentSet : Bool) :
    Ordered { s with
      isEos := isEos, segmentSet := segmentSet, isSinkFlushOngoing := true, samples := []
      departures := s.departures ++ s.samples.map fun k ↦ ⟨k, .cleared s.arrived⟩
      overtaken := true } := by
  refine ⟨?_, h.inOrder, h.queued, by simp, fun k hk ↦ ?_⟩
  · simpa [Function.comp_def] using h.complete
  · have hobtained := h.obtained k hk
    exact ⟨hobtained.arrived, by simp, by simp, hobtained.later, hobtained.taken⟩

theorem ordered_obtain {s : State} (h : Ordered s) {p : Pull} {k : ℕ} (hpc : s.puller = .front p)
    (hk : s.samples.head? = some k) :
    Ordered { s with puller := .map p k, overtaken := false } := by
  have hgiven : s.puller.given = none := by rw [hpc]; rfl
  have hmem : k ∈ s.samples := List.mem_of_head? hk
  have hbehind : ∀ g ∈ s.given, ∀ j ∈ s.samples, g < j := fun g hg j hj ↦
    (h.behind g hg j hj).resolve_right (by simp [hgiven])
  refine ⟨h.complete, h.inOrder, h.queued, fun g hg j hj ↦ .inl (hbehind g hg j hj), ?_⟩
  rintro _ ⟨⟩
  exact ⟨h.lt_arrived hmem, fun _ ↦ hk, by simp, fun _ g hg ↦ hbehind g hg k hmem, by
    simp [PullerPc.given]⟩

theorem ordered_give {s : State} (h : Ordered s) {p : Pull} {k : ℕ} (hpc : s.puller = .add p k) :
    Ordered { s with puller := .pop p k .given, given := s.given ++ [k] } := by
  have hgiven : s.puller.given = none := by rw [hpc]; rfl
  have hobtained := h.obtained k (by rw [hpc]; rfl)
  refine ⟨h.complete, ?_, ?_, ?_, ?_⟩
  · rw [List.pairwise_append]
    refine ⟨h.inOrder, List.pairwise_singleton _ _, fun g hg j hj ↦ ?_⟩
    obtain rfl := List.mem_singleton.mp hj
    exact hobtained.later hgiven g hg
  · intro g hg
    rcases List.mem_append.mp hg with hg | hg
    · exact h.queued g hg
    · obtain rfl := List.mem_singleton.mp hg
      exact hobtained.arrived
  · intro g hg j hj
    rcases List.mem_append.mp hg with hg | hg
    · exact .inl ((h.behind g hg j hj).resolve_right (by simp [hgiven]))
    · obtain rfl := List.mem_singleton.mp hg
      cases hover : s.overtaken with
      | true => exact .inl (hobtained.older hover j hj)
      | false =>
          obtain ⟨rest, hrest⟩ := List.head?_eq_some_iff.mp (hobtained.front hover)
          have hsorted := h.sorted
          simp only [hrest, List.mem_cons, List.pairwise_cons] at hj hsorted
          rcases hj with rfl | hj
          · exact .inr ⟨rfl, rfl⟩
          · exact .inl (hsorted.1 j hj)
  · rintro _ ⟨⟩
    exact ⟨hobtained.arrived, hobtained.front, hobtained.older, by simp [PullerPc.given],
      fun _ ↦ List.mem_append_right _ List.mem_cons_self⟩

theorem ordered_pop {s : State} (h : Ordered s) {p q : Pull} {k j : ℕ} {outcome : Outcome}
    {samples : List ℕ} (hpc : s.puller = .pop p k outcome) (hsamples : s.samples = j :: samples) :
    Ordered { s with
      samples := samples
      departures := s.departures ++ [⟨j, .popped k outcome⟩]
      puller := .loop q } := by
  have hobtained := h.obtained k (by rw [hpc]; rfl)
  have hsorted := h.sorted
  rw [hsamples, List.pairwise_cons] at hsorted
  refine ⟨?_, h.inOrder, h.queued, fun g hg i hi ↦ .inl ?_, by rintro _ ⟨⟩⟩
  · have hcomplete := h.complete
    rw [hsamples] at hcomplete
    simpa using hcomplete
  · have hmem : i ∈ s.samples := by
      rw [hsamples]
      exact List.mem_cons_of_mem _ hi
    rcases h.behind g hg i hmem with hlt | ⟨hgiven, rfl⟩
    · exact hlt
    -- The sample about to be popped is in front or gone, so it is not behind `j`.
    · have hk := PullerPc.sample_of_given hgiven
      have hik := h.obtained g hk
      cases hover : s.overtaken with
      | true => exact hik.older hover g hmem
      | false =>
          have hfront := hik.front hover
          rw [hsamples, List.head?_cons, Option.some.injEq] at hfront
          have := hsorted.1 g hi
          omega

theorem ordered_of_move {s t : State} {e : Event} (h : Ordered s) (hm : Move s e t) :
    Ordered t := by
  cases hm with
  | quiet _ _ _ _ _ _ pc _ _ hsample hgiven =>
      refine ⟨h.complete, h.inOrder, h.queued, ?_, fun k hk ↦ ?_⟩
      · intro g hg j hj
        change g < j ∨ pc.given = some j ∧ g = j
        rw [hgiven]
        exact h.behind g hg j hj
      · change pc.sample = some k at hk
        rcases hsample with hsame | hnone
        · have hobtained := h.obtained k (hsame.symm.trans hk)
          refine ⟨hobtained.arrived, hobtained.front, hobtained.older, ?_, ?_⟩
          · intro hpc
            exact hobtained.later (hgiven.symm.trans hpc)
          · intro hpc
            exact hobtained.taken (hgiven.symm.trans hpc)
        · rw [hnone] at hk
          cases hk
  | queue waiting _ => exact ordered_queue h waiting
  | clear isEos segmentSet _ => exact ordered_clear h isEos segmentSet
  | obtain p k hpc hk => exact ordered_obtain h hpc hk
  | give p k hpc => exact ordered_give h hpc
  | popNothing p k outcome hpc hsamples =>
      refine ⟨h.complete, h.inOrder, h.queued, ?_, by rintro _ ⟨⟩⟩
      simp [hsamples]
  | pop p k outcome j samples hpc hsamples => exact ordered_pop h hpc hsamples

/-! ## Departures -/

/-- A pop is legitimate exactly if the obtained sample is still in front. -/
theorem legitimate_pop_iff {s : State} (h : Ordered s) {p : Pull} {k j : ℕ} {outcome : Outcome}
    {samples : List ℕ} (hpc : s.puller = .pop p k outcome) (hsamples : s.samples = j :: samples) :
    Departure.Legitimate s.given ⟨j, .popped k outcome⟩ ↔ s.overtaken = false := by
  have hobtained := h.obtained k (by rw [hpc]; rfl)
  cases hover : s.overtaken with
  | true =>
      have hlt := hobtained.older hover j (by simp [hsamples])
      simp only [Departure.Legitimate, Bool.true_eq_false, iff_false, not_and]
      omega
  | false =>
      have hfront := hobtained.front hover
      rw [hsamples, List.head?_cons, Option.some.injEq] at hfront
      simp only [Departure.Legitimate, iff_true]
      refine ⟨hfront, fun ho ↦ hobtained.taken ?_⟩
      rw [hpc, ho]
      rfl

theorem conserved_iff_of_move {s t : State} {e : Event} (h : Ordered s) (hc : Conserved s)
    (hm : Move s e t) : Conserved t ↔ Undisturbed s e := by
  rw [(ordered_of_move h hm).conserved_iff]
  cases hm with
  | quiet _ _ _ _ _ _ _ _ he | queue _ he => exact iff_of_true hc.departed he
  | clear _ _ he =>
      refine iff_of_true (fun d hd ↦ ?_) he
      rcases List.mem_append.mp hd with hd | hd
      · exact hc.departed d hd
      · obtain ⟨k, hk, rfl⟩ := List.mem_map.mp hd
        exact h.lt_arrived hk
  | obtain => exact iff_of_true hc.departed trivial
  | give =>
      exact iff_of_true (fun d hd ↦ (hc.departed d hd).mono (List.subset_append_left _ _)) trivial
  | popNothing p k outcome hpc hsamples => exact iff_of_true hc.departed fun _ ↦ hsamples
  | pop p k outcome j samples hpc hsamples =>
      rw [List.forall_mem_append, and_iff_right hc.departed, List.forall_mem_singleton,
        legitimate_pop_iff h hpc hsamples]
      simp [Undisturbed, hsamples]

/-! ## Runs -/

theorem ordered_start : Ordered {} :=
  ⟨rfl, List.Pairwise.nil, by simp, by simp, by rintro _ ⟨⟩⟩

theorem conserved_start : Conserved {} :=
  ordered_start.conserved_iff.mpr (by simp)

/-- Samples are conserved throughout a run exactly if no iteration pops from a
queue that was cleared and filled again in the middle of it. -/
theorem always_conserved_iff {es : List Event} {t : State} (hrun : machine.run {} es = some t) :
    machine.Always Conserved {} es ↔ machine.Meets Undisturbed {} es :=
  machine.always_iff_meets (fun _ _ _ h _ _ hstep ↦ ordered_of_move h (move_of_step hstep))
    (fun _ _ _ h hc hstep ↦ conserved_iff_of_move h hc (move_of_step hstep))
    ordered_start conserved_start hrun

/-- A flush and a new buffer between `getFrontSample` and `popSample`. -/
def flushWhilePulling : List Event :=
  [.setSegment, .handleBuffer true, .pullBuffer 1, .isReadyToSendData, .getFrontSample, .map true,
    .parseBuffer true, .startFlushing, .flushServer, .stopFlushing, .handleBuffer true,
    .addSegment .ok, .popSample]

theorem flushWhilePulling_run :
    ∃ s, machine.run {} flushWhilePulling = some s ∧ s.samples = [] ∧ s.given = [0] ∧
      s.departures = [⟨0, .cleared 1⟩, ⟨1, .popped 0 .given⟩] :=
  ⟨_, rfl, rfl, rfl, rfl⟩

theorem always_conserved_iff_flushWhilePulling :
    ¬machine.Meets Undisturbed {} flushWhilePulling := by
  intro hmeets
  obtain ⟨s, hs, -, -, hdepartures⟩ := flushWhilePulling_run
  have hconserved := ((always_conserved_iff hs).mpr hmeets).last machine hs
  have hpopped := hconserved.departed ⟨1, .popped 0 .given⟩ (by simp [hdepartures])
  exact absurd hpopped.1 (by decide)

theorem lost_sample_reachable : ¬∀ (es : List Event) (s : State),
    machine.run {} es = some s → Conserved s := by
  intro h
  obtain ⟨s, hs, -, -, hdepartures⟩ := flushWhilePulling_run
  have hpopped := (h flushWhilePulling s hs).departed ⟨1, .popped 0 .given⟩ (by simp [hdepartures])
  exact absurd hpopped.1 (by decide)

end RialtoGStreamer.PullMode
