import RialtoGStreamer.PullMode.Moves

/-!
# Segments and ends of stream that are still valid

A pull is allowed by a flag that a SEGMENT or an EOS event has set, and answers
EOS by the flag of the latter. What these events are worth ends with the next
FLUSH_START or READY->PAUSED; the flags are cleared by `startFlushing` only, and
only if it finds no flush ongoing.
-/

namespace RialtoGStreamer.PullMode

open Library NeedData

/-- What a pull reported, with the events received since the last FLUSH_START or
READY->PAUSED: a sample handed to `addSegment`, or the answer EOS. -/
inductive Report where
  | handOver (segment eos : Bool)
  | answerEos (eos : Bool)
  deriving DecidableEq

def Report.isFresh : Report → Bool
  | .handOver segment eos => segment || eos
  | .answerEos eos => eos

/-- What the puller reports in an event. -/
def PullerPc.reports (segment eos : Bool) : PullerPc → Event → List Report
  | .add _ _, .addSegment _ => [.handOver segment eos]
  | .done p, .postHaveData => if p.status = .eos then [.answerEos eos] else []
  | _, _ => []

/-- One delegate, the events received since the last FLUSH_START or READY->PAUSED,
and the reports of its pulls. -/
structure Received where
  delegate : State := {}
  segment : Bool := false
  eos : Bool := false
  reports : List Report := []
  deriving DecidableEq

namespace Received

def receive (s : Received) : Event → Bool × Bool
  | .startFlushing | .readyToPaused => (false, false)
  | .setSegment => (true, s.eos)
  | .setEos => (s.segment, true)
  | _ => (s.segment, s.eos)

def step (s : Received) (e : Event) : Option Received :=
  (s.delegate.step e).map fun delegate ↦
    { delegate
      segment := (s.receive e).1
      eos := (s.receive e).2
      reports := s.reports ++ s.delegate.puller.reports s.segment s.eos e }

end Received

def receiving : Machine Received Event where
  step := Received.step

theorem receiving_records : receiving.Records machine Received.delegate := by
  intro s e
  change ((s.delegate.step e).map _).map _ = s.delegate.step e
  rw [Option.map_map]
  exact Option.map_id'

/-- No report rests on an event from before a flush or from an earlier session. -/
def Fresh (s : Received) : Prop :=
  ∀ r ∈ s.reports, r.isFresh = true

namespace PullerPc

/-- The iteration has passed the test of `isReadyToSendData` and has not handed
over a sample yet. -/
def passed : PullerPc → Bool
  | .front _ | .map _ _ | .parse _ _ | .add _ _ => true
  | .idle | .loop _ | .eos _ | .pop _ _ _ | .done _ => false

/-- The pull has seen the end of the stream and has not answered yet. -/
def sawEos : PullerPc → Bool
  | .idle => false
  | .loop p | .front p | .eos p | .map p _ | .parse p _ | .add p _ | .pop p _ _ | .done p => p.isEos

end PullerPc

/-- The flags are clear, or are about to be, and no pull acts on them. -/
def Settled (s : Received) : Event → Prop
  | .startFlushing =>
      (s.delegate.isSinkFlushOngoing = true → s.delegate.isReadyToSendData = false) ∧
        s.delegate.puller.passed = false ∧ s.delegate.puller.sawEos = false
  | .readyToPaused =>
      s.delegate.isReadyToSendData = false ∧
        s.delegate.puller.passed = false ∧ s.delegate.puller.sawEos = false
  | _ => True

instance (s : Received) : ∀ e, Decidable (Settled s e)
  | .startFlushing | .readyToPaused => inferInstanceAs (Decidable (_ ∧ _ ∧ _))
  | .handleBuffer _ | .wake _ | .flushServer | .stopFlushing | .handleFlushCompleted | .setEos
  | .setSegment | .pausedToReady | .pullBuffer _ | .isReadyToSendData | .getFrontSample | .isEos
  | .map _ | .parseBuffer _ | .addSegment _ | .popSample | .postHaveData => isTrue trivial

/-- The flags and the pull in progress rest on events that are still valid. -/
structure Valid (s : Received) : Prop where
  isEos : s.delegate.isEos = true → s.eos = true
  segmentSet : s.delegate.segmentSet = true → s.segment = true
  passed : s.delegate.puller.passed = true → (s.segment || s.eos) = true
  sawEos : s.delegate.puller.sawEos = true → s.eos = true
  fresh : Fresh s

/-! ## The steps of the delegate -/

theorem Pull.status_eq_eos_iff {p : Pull} : p.status = .eos ↔ p.isEos = true := by
  unfold Pull.status
  cases p.isEos
  · rw [if_neg Bool.false_ne_true]
    split <;> simp
  · simp

/-- A step that leaves the flags alone; a pull goes on by the flags as they are. -/
structure Onward (s t : State) : Prop where
  isEos : t.isEos = s.isEos
  segmentSet : t.segmentSet = s.segmentSet
  passed : t.puller.passed = true → s.puller.passed = true ∨ s.isReadyToSendData = true
  sawEos : t.puller.sawEos = true → s.puller.sawEos = true ∨ s.isEos = true

theorem onward_of_puller {s t : State} (hisEos : t.isEos = s.isEos)
    (hsegment : t.segmentSet = s.segmentSet) (hpuller : t.puller = s.puller) : Onward s t :=
  ⟨hisEos, hsegment, fun h ↦ .inl (hpuller ▸ h), fun h ↦ .inl (hpuller ▸ h)⟩

/-- An iteration that has passed the test goes on with its sample. -/
theorem onward_of_passed {s t : State} (hisEos : t.isEos = s.isEos)
    (hsegment : t.segmentSet = s.segmentSet) (hpassed : s.puller.passed = true)
    (hsaw : t.puller.sawEos = s.puller.sawEos) : Onward s t :=
  ⟨hisEos, hsegment, fun _ ↦ .inl hpassed, fun h ↦ .inl (hsaw ▸ h)⟩

theorem onward_queueBuffer (s : State) (waiting created : Bool) :
    Onward s ({ s with waiting := waiting }.queueBuffer created).2 := by
  unfold State.queueBuffer
  split
  · exact onward_of_puller rfl rfl rfl
  · split <;> exact onward_of_puller rfl rfl rfl

theorem onward_of_pull {s t : State} {e : Event} (h : PullMove s e t) : Onward s t := by
  cases h with
  | begin | post => exact ⟨rfl, rfl, by simp [PullerPc.passed], by simp [PullerPc.sawEos]⟩
  | ready p hpc _ hready =>
      have hsaw : s.puller.sawEos = p.isEos := by rw [hpc]; rfl
      exact ⟨rfl, rfl, fun _ ↦ .inr hready, fun hp ↦ .inl (hsaw.trans hp)⟩
  | leave p hpc =>
      have hsaw : s.puller.sawEos = p.isEos := by rw [hpc]; rfl
      exact ⟨rfl, rfl, by simp [PullerPc.passed], fun hp ↦ .inl (hsaw.trans hp)⟩
  | isEos p hpc =>
      refine ⟨rfl, rfl, by simp [PullerPc.passed], fun hp ↦ .inr ?_⟩
      change (s.samples.isEmpty && s.isEos) = true at hp
      simpa using (Bool.and_eq_true _ _ ▸ hp).2
  | obtain p _ hpc | nothing p hpc | map p _ hpc | unmapped p _ hpc | parse p _ hpc
  | unparsed p _ hpc | noSpace p _ hpc | give p _ _ _ hpc =>
      have hpassed : s.puller.passed = true := by rw [hpc]; rfl
      have hsaw : s.puller.sawEos = p.isEos := by rw [hpc]; rfl
      exact onward_of_passed rfl rfl hpassed hsaw.symm
  | pop p k outcome hpc =>
      have hsaw : s.puller.sawEos = p.isEos := by rw [hpc]; rfl
      have hafter : (p.afterPop outcome).isEos = p.isEos := by cases outcome <;> rfl
      refine ⟨?_, ?_, by simp [PullerPc.passed], fun hp ↦ .inl ?_⟩
      · unfold State.popSample
        split <;> rfl
      · unfold State.popSample
        split <;> rfl
      · exact hsaw.trans (hafter.symm.trans hp)

/-! ## One step -/

theorem Valid.fresh_append {s : Received} (h : Valid s) (e : Event) :
    ∀ r ∈ s.reports ++ s.delegate.puller.reports s.segment s.eos e, r.isFresh = true := by
  intro r hr
  rcases List.mem_append.mp hr with hr | hr
  · exact h.fresh r hr
  · unfold PullerPc.reports at hr
    split at hr
    · next p k status hpc _ =>
        obtain rfl := List.mem_singleton.mp hr
        exact h.passed (by rw [hpc]; rfl)
    · next p hpc _ =>
        split at hr
        · next heos =>
            obtain rfl := List.mem_singleton.mp hr
            apply h.sawEos
            rw [hpc]
            exact Pull.status_eq_eos_iff.mp heos
        · cases hr
    · cases hr

theorem Valid.of_onward {s : Received} {delegate : State} (h : Valid s)
    (honward : Onward s.delegate delegate) {reports : List Report}
    (hfresh : ∀ r ∈ reports, r.isFresh = true) :
    Valid ⟨delegate, s.segment, s.eos, reports⟩ := by
  have hready : s.delegate.isReadyToSendData = true → (s.segment || s.eos) = true := by
    intro hready
    rcases Bool.or_eq_true_iff.mp hready with heos | hsegment
    · rw [h.isEos heos, Bool.or_true]
    · rw [h.segmentSet hsegment, Bool.true_or]
  refine ⟨fun heos ↦ ?_, fun hsegment ↦ ?_, fun hpassed ↦ ?_, fun hsaw ↦ ?_, hfresh⟩
  · exact h.isEos (honward.isEos ▸ heos)
  · exact h.segmentSet (honward.segmentSet ▸ hsegment)
  · exact (honward.passed hpassed).elim h.passed hready
  · exact (honward.sawEos hsaw).elim h.sawEos h.isEos

/-- With the flags clear and no pull acting on them nothing has to be valid. -/
theorem valid_of_clear {delegate : State} {reports : List Report}
    (hready : delegate.isReadyToSendData = false) (hpassed : delegate.puller.passed = false)
    (hsaw : delegate.puller.sawEos = false) (hfresh : ∀ r ∈ reports, r.isFresh = true)
    (segment eos : Bool) : Valid ⟨delegate, segment, eos, reports⟩ := by
  obtain ⟨hisEos, hsegment⟩ := Bool.or_eq_false_iff.mp hready
  exact ⟨by simp [hisEos], by simp [hsegment], by simp [hpassed], by simp [hsaw], hfresh⟩

theorem valid_of_step {s t : Received} {e : Event} (h : Valid s) (hc : Settled s e)
    (hstep : s.step e = some t) : Valid t := by
  obtain ⟨delegate, hdelegate, rfl⟩ := Option.map_eq_some_iff.mp hstep
  have hfresh := h.fresh_append e
  have hkeeps : s.receive e = (s.segment, s.eos) → Onward s.delegate delegate →
      Valid ⟨delegate, (s.receive e).1, (s.receive e).2,
        s.reports ++ s.delegate.puller.reports s.segment s.eos e⟩ := by
    intro hreceive honward
    rw [hreceive]
    exact h.of_onward honward hfresh
  cases step_move hdelegate with
  | startFlushing =>
      obtain ⟨hready, hpassed, hsaw⟩ := hc
      have hpuller : s.delegate.startFlushing.puller = s.delegate.puller := by
        unfold State.startFlushing
        split <;> rfl
      refine valid_of_clear ?_ (hpuller ▸ hpassed) (hpuller ▸ hsaw) hfresh _ _
      unfold State.startFlushing
      split
      · next hongoing => exact hready hongoing
      · rfl
  | readyToPaused =>
      obtain ⟨hready, hpassed, hsaw⟩ := hc
      refine valid_of_clear ?_ ?_ ?_ hfresh _ _
      · exact hready
      · exact hpassed
      · exact hsaw
  | setEos =>
      refine ⟨fun _ ↦ rfl, h.segmentSet, fun _ ↦ ?_, fun _ ↦ rfl, hfresh⟩
      exact Bool.or_true _
  | setSegment => exact ⟨h.isEos, fun _ ↦ rfl, fun _ ↦ rfl, h.sawEos, hfresh⟩
  | queue _ waiting created he =>
      refine hkeeps ?_ (onward_queueBuffer _ waiting created)
      rcases he with rfl | rfl <;> rfl
  | wait | flushServer | stopFlushing | handleFlushCompleted | pausedToReady =>
      exact hkeeps rfl (onward_of_puller rfl rfl rfl)
  | pull hmove =>
      refine hkeeps ?_ (onward_of_pull hmove)
      cases hmove <;> rfl

/-! ## Runs -/

theorem valid_start : Valid {} :=
  ⟨by simp, by simp, by simp [PullerPc.passed], by simp [PullerPc.sawEos], by simp [Fresh]⟩

/-- A sample is pulled, and after a flush another segment ends. -/
def flushBetweenPulls : List Event :=
  [.readyToPaused, .setSegment, .handleBuffer true, .pullBuffer 1, .isReadyToSendData,
    .getFrontSample, .map true, .parseBuffer true, .addSegment .ok, .popSample,
    .isReadyToSendData, .postHaveData, .startFlushing, .flushServer, .stopFlushing,
    .handleFlushCompleted, .setEos, .pullBuffer 1, .isReadyToSendData, .getFrontSample, .isEos,
    .postHaveData]

theorem flushBetweenPulls_settled : receiving.Meets Settled {} flushBetweenPulls := by
  decide

/-- A session that ends at its EOS, and the first pull of the next one. -/
def eosOfEarlierSession : List Event :=
  [.readyToPaused, .setSegment, .setEos, .pausedToReady, .readyToPaused, .pullBuffer 1,
    .isReadyToSendData, .getFrontSample, .isEos, .postHaveData]

theorem eosOfEarlierSession_run :
    ∃ s, receiving.run {} eosOfEarlierSession = some s ∧ s.reports = [.answerEos false] :=
  ⟨_, rfl, rfl⟩

end RialtoGStreamer.PullMode
