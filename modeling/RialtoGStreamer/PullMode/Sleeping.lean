import RialtoGStreamer.PullMode.Capacity

/-!
# The streaming thread is woken up

While `handleBuffer` sleeps the queue is full, unless the thread was notified
already: nobody makes room without a notification. So a flush always wakes the
thread up, and so does the puller with the next sample it serves.
-/

namespace RialtoGStreamer.PullMode

open Library

namespace Event

/-- The steps of `PullBufferMessage::handle`. -/
def isPuller : Event → Bool
  | .pullBuffer _ | .isReadyToSendData | .getFrontSample | .isEos | .map _ | .parseBuffer _
  | .addSegment _ | .popSample | .postHaveData => true
  | _ => false

/-- The server keeps the puller from its sample: it flushes, or it has no space. -/
def disturbs : Event → Bool
  | .flushServer => true
  | .addSegment status => status = .noSpace
  | _ => false

end Event

namespace Watched

/-- `handleBuffer` waits, and nobody has notified it. -/
def asleep (w : Watched) : Bool :=
  w.delegate.waiting && !w.notified

theorem asleep_iff {w : Watched} :
    w.asleep = true ↔ w.delegate.waiting = true ∧ w.notified = false := by
  simp [asleep]

theorem asleep_after_iff {w : Watched} {e : Event} {t : State} :
    (w.after e t).asleep = true ↔
      t.waiting = true ∧ w.notified = false ∧ notifies w.delegate e = false := by
  rw [asleep_iff]
  change t.waiting = true ∧ (t.waiting && (w.notified || notifies w.delegate e)) = false ↔ _
  cases t.waiting <;> simp

end Watched

/-! ## The queue is full -/

/-- A sink that flushes has an empty queue, and one whose streaming thread sleeps
a full one. -/
structure Sleeping (w : Watched) : Prop where
  flushed : w.delegate.isSinkFlushOngoing = true → w.delegate.samples = []
  full : w.asleep = true → maxInternalBuffersQueueSize ≤ w.delegate.samples.length

theorem Sleeping.notFlushing {w : Watched} (hw : Sleeping w) (hasleep : w.asleep = true) :
    w.delegate.isSinkFlushOngoing = false := by
  by_contra hflush
  have hfull := hw.full hasleep
  rw [hw.flushed (Bool.not_eq_false _ ▸ hflush)] at hfull
  exact absurd hfull (by decide)

/-- Neither the queue nor the flush changes, nor whether `handleBuffer` waits. -/
structure SameQueue (s t : State) : Prop where
  samples : t.samples = s.samples
  isSinkFlushOngoing : t.isSinkFlushOngoing = s.isSinkFlushOngoing
  waiting : t.waiting = s.waiting

theorem Sleeping.of_same {w : Watched} (hw : Sleeping w) {e : Event} {t : State}
    (hsame : SameQueue w.delegate t) : Sleeping (w.after e t) := by
  constructor
  · intro hflush
    apply hsame.samples.trans
    apply hw.flushed
    exact hsame.isSinkFlushOngoing.symm.trans hflush
  · intro hasleep
    obtain ⟨hwaiting, hnotified, -⟩ := Watched.asleep_after_iff.mp hasleep
    have hfull := hw.full (Watched.asleep_iff.mpr ⟨hsame.waiting.symm.trans hwaiting, hnotified⟩)
    exact hsame.samples.symm ▸ hfull

theorem flushing_popSample (s : State) (k : ℕ) (outcome : Outcome) :
    (s.popSample k outcome).isSinkFlushOngoing = s.isSinkFlushOngoing := by
  unfold State.popSample
  split <;> rfl

theorem samples_popSample (s : State) (k : ℕ) (outcome : Outcome) :
    (s.popSample k outcome).samples = s.samples.tail := by
  unfold State.popSample
  split
  · next hempty => simp [hempty]
  · next sample samples hsamples => simp [hsamples]

/-- The puller takes a sample, and notifies then, or lets the queue be. -/
theorem PullMove.same_or_pop {s t : State} {e : Event} (hm : PullMove s e t) :
    SameQueue s t ∨ e = .popSample ∧ t.samples = s.samples.tail ∧
      t.isSinkFlushOngoing = s.isSinkFlushOngoing := by
  cases hm with
  | pop p k outcome hpc =>
      exact .inr ⟨rfl, samples_popSample s k outcome, flushing_popSample s k outcome⟩
  | begin | ready | leave | obtain | nothing | isEos | map | unmapped | parse | unparsed | noSpace
  | give | post => exact .inl ⟨rfl, rfl, rfl⟩

theorem queueBuffer_flushing {s : State} (hflush : s.isSinkFlushOngoing = true) (created : Bool) :
    (s.queueBuffer created).2 = s := by
  simp [State.queueBuffer, hflush]

theorem flushing_queueBuffer (s : State) (created : Bool) :
    (s.queueBuffer created).2.isSinkFlushOngoing = s.isSinkFlushOngoing := by
  unfold State.queueBuffer
  split
  · rfl
  · split <;> rfl

/-- A buffer that is queued, or discarded, leaves nobody waiting. -/
theorem sleeping_queueBuffer {s : State} (hflushed : s.isSinkFlushOngoing = true → s.samples = [])
    (hwaiting : s.waiting = false) (w : Watched) (e : Event) (created : Bool) :
    Sleeping (w.after e (s.queueBuffer created).2) := by
  constructor
  · intro hflush
    have hongoing : s.isSinkFlushOngoing = true :=
      (flushing_queueBuffer s created).symm.trans hflush
    change (s.queueBuffer created).2.samples = []
    rw [queueBuffer_flushing hongoing]
    exact hflushed hongoing
  · intro hasleep
    obtain ⟨hstill, -⟩ := Watched.asleep_after_iff.mp hasleep
    rw [waiting_queueBuffer, hwaiting] at hstill
    cases hstill

theorem sleeping_handleBuffer {w : Watched} {created : Bool} {t : State} (hw : Sleeping w)
    (h : w.delegate.step (.handleBuffer created) = some t) :
    Sleeping (w.after (.handleBuffer created) t) := by
  obtain ⟨hwaiting, ⟨hfull, rfl⟩ | ⟨-, rfl⟩⟩ := handleBuffer_cases h
  · exact ⟨hw.flushed, fun _ ↦ hfull⟩
  · exact sleeping_queueBuffer hw.flushed hwaiting w _ created

theorem sleeping_wake {w : Watched} {created : Bool} {t : State} (hw : Sleeping w)
    (h : w.delegate.step (.wake created) = some t) : Sleeping (w.after (.wake created) t) := by
  obtain ⟨-, rfl⟩ := wake_cases h
  apply sleeping_queueBuffer
  · exact hw.flushed
  · rfl

/-- A flush that is already going on finds nobody asleep. -/
theorem sleeping_startFlushing {w : Watched} (hw : Sleeping w) :
    Sleeping (w.after .startFlushing w.delegate.startFlushing) := by
  cases hflush : w.delegate.isSinkFlushOngoing with
  | true =>
      have hsame : w.delegate.startFlushing = w.delegate := by simp [State.startFlushing, hflush]
      rw [hsame]
      exact hw.of_same ⟨rfl, rfl, rfl⟩
  | false =>
      constructor
      · intro _
        simp [Watched.after, State.startFlushing, hflush, State.clearBuffersUnlocked]
      · intro hasleep
        obtain ⟨-, -, hsilent⟩ := Watched.asleep_after_iff.mp hasleep
        rw [notifies, hflush] at hsilent
        cases hsilent

theorem sleeping_step {w u : Watched} {e : Event} (hw : Sleeping w)
    (h : watched.step w e = some u) : Sleeping u := by
  obtain ⟨t, ht, rfl⟩ := Option.map_eq_some_iff.mp h
  cases step_move ht with
  | wait created => exact sleeping_handleBuffer hw ht
  | queue e waiting created he =>
      rcases he with rfl | rfl
      · exact sleeping_handleBuffer hw ht
      · exact sleeping_wake hw ht
  | startFlushing => exact sleeping_startFlushing hw
  | pausedToReady =>
      refine ⟨fun _ ↦ rfl, fun hasleep ↦ ?_⟩
      cases (Watched.asleep_after_iff.mp hasleep).2.2
  | stopFlushing | readyToPaused =>
      constructor
      · rintro ⟨⟩
      · intro hasleep
        obtain ⟨hwaiting, hnotified, -⟩ := Watched.asleep_after_iff.mp hasleep
        exact hw.full (Watched.asleep_iff.mpr ⟨hwaiting, hnotified⟩)
  | flushServer | handleFlushCompleted | setEos | setSegment =>
      exact hw.of_same ⟨rfl, rfl, rfl⟩
  | pull hmove =>
      rcases hmove.same_or_pop with hsame | ⟨rfl, hsamples, hflush⟩
      · exact hw.of_same hsame
      · constructor
        · intro hongoing
          change t.samples = []
          rw [hsamples, hw.flushed (hflush.symm.trans hongoing), List.tail_nil]
        · intro hasleep
          cases (Watched.asleep_after_iff.mp hasleep).2.2

/-! ## The puller serves the next sample -/

/-- How many steps the puller takes at most until it pops the sample it serves. -/
def PullerPc.untilPop : PullerPc → ℕ
  | .loop _ => 6
  | .front _ => 5
  | .map _ _ => 4
  | .parse _ _ => 3
  | .add _ _ => 2
  | .pop _ _ _ => 1
  | .idle | .eos _ | .done _ => 0

/-- The puller serves a sample, or is going to: it was asked for one more, there is a
segment or EOS, and the server does not flush. -/
inductive IsServing (s : State) : Prop
  | loop (p : Pull) (hpc : s.puller = .loop p) (hframe : p.frame < p.frameCount)
      (hready : s.isReadyToSendData = true) (hserver : s.isServerFlushOngoing = false)
  | front (p : Pull) (hpc : s.puller = .front p) (hserver : s.isServerFlushOngoing = false)
  | map (p : Pull) (k : ℕ) (hpc : s.puller = .map p k)
  | parse (p : Pull) (k : ℕ) (hpc : s.puller = .parse p k)
  | add (p : Pull) (k : ℕ) (hpc : s.puller = .add p k)
  | pop (p : Pull) (k : ℕ) (outcome : Outcome) (hpc : s.puller = .pop p k outcome)

/-- The puller is where it was, and finds the delegate as ready as before. -/
structure SameService (s t : State) : Prop where
  puller : t.puller = s.puller
  ready : s.isReadyToSendData = true → t.isReadyToSendData = true
  server : s.isServerFlushOngoing = false → t.isServerFlushOngoing = false

theorem IsServing.of_same {s t : State} (hs : IsServing s) (hsame : SameService s t) :
    IsServing t := by
  cases hs with
  | loop p hpc hframe hready hserver =>
      exact .loop p (hsame.puller.trans hpc) hframe (hsame.ready hready) (hsame.server hserver)
  | front p hpc hserver => exact .front p (hsame.puller.trans hpc) (hsame.server hserver)
  | map p k hpc => exact .map p k (hsame.puller.trans hpc)
  | parse p k hpc => exact .parse p k (hsame.puller.trans hpc)
  | add p k hpc => exact .add p k (hsame.puller.trans hpc)
  | pop p k outcome hpc => exact .pop p k outcome (hsame.puller.trans hpc)

theorem sameService_queueBuffer (s : State) (created : Bool) :
    SameService s (s.queueBuffer created).2 := by
  unfold State.queueBuffer
  split
  · exact ⟨rfl, id, id⟩
  · split <;> exact ⟨rfl, id, id⟩

theorem IsServing.front_nonempty {s : State} (hserver : s.isServerFlushOngoing = false)
    (hfull : maxInternalBuffersQueueSize ≤ s.samples.length) : s.getFrontSample ≠ none := by
  intro hnone
  rw [State.getFrontSample, hserver, if_neg Bool.false_ne_true, List.head?_eq_none_iff] at hnone
  rw [hnone] at hfull
  exact absurd hfull (by decide)

/-- The step brings the puller nearer to the pop; or it is the pop. -/
theorem PullMove.serves {s t : State} {e : Event} (hm : PullMove s e t) (hs : IsServing s)
    (hfull : maxInternalBuffersQueueSize ≤ s.samples.length) (hquiet : e.disturbs = false) :
    e = .popSample ∨ IsServing t ∧ t.puller.untilPop < s.puller.untilPop := by
  cases hm with
  | pop => exact .inl rfl
  | ready p hpc =>
      right
      cases hs with
      | loop p' hpc' hframe hready hserver =>
          exact ⟨.front p rfl hserver, by simp [PullerPc.untilPop, hpc]⟩
      | _ => simp_all
  | obtain p k hpc => exact .inr ⟨.map p k rfl, by simp [PullerPc.untilPop, hpc]⟩
  | map p k hpc => exact .inr ⟨.parse p k rfl, by simp [PullerPc.untilPop, hpc]⟩
  | parse p k hpc => exact .inr ⟨.add p k rfl, by simp [PullerPc.untilPop, hpc]⟩
  | unmapped p k hpc | unparsed p k hpc | give p k status hstatus hpc =>
      exact .inr ⟨.pop p k _ rfl, by simp [PullerPc.untilPop, hpc]⟩
  | noSpace p k hpc => cases hquiet
  | nothing p hpc hnone =>
      cases hs with
      | front p' hpc' hserver => exact absurd hnone (IsServing.front_nonempty hserver hfull)
      | _ => simp_all
  | leave p hpc hleave =>
      cases hs with
      | loop p' hpc' hframe hready hserver =>
          rw [hpc] at hpc'
          cases hpc'
          exact absurd ⟨hframe, hready⟩ hleave
      | _ => simp_all
  | begin frameCount hpc | isEos p hpc | post p hpc => cases hs <;> simp_all

theorem not_asleep_of_notifies {w u : Watched} {e : Event}
    (hnotifies : notifies w.delegate e = true) (h : watched.step w e = some u) :
    u.asleep = false := by
  obtain ⟨t, -, rfl⟩ := Option.map_eq_some_iff.mp h
  apply Bool.eq_false_iff.mpr
  intro hasleep
  rw [(Watched.asleep_after_iff.mp hasleep).2.2] at hnotifies
  cases hnotifies

theorem notifies_startFlushing {w : Watched} (hw : Sleeping w) (hasleep : w.asleep = true) :
    notifies w.delegate .startFlushing = true := by
  rw [notifies, hw.notFlushing hasleep, Bool.not_false]

/-- The thread is woken up, or the puller has less to do before it is. -/
theorem serves_step {w u : Watched} {e : Event} (hw : Sleeping w) (hasleep : w.asleep = true)
    (hserves : IsServing w.delegate) (hquiet : e.disturbs = false)
    (h : watched.step w e = some u) : u.asleep = false ∨ IsServing u.delegate ∧
      (if e.isPuller then 1 else 0) + u.delegate.puller.untilPop ≤
        w.delegate.puller.untilPop := by
  have hnotified := @not_asleep_of_notifies w u e
  obtain ⟨t, ht, rfl⟩ := Option.map_eq_some_iff.mp h
  have hsame : e.isPuller = false → SameService w.delegate t → IsServing t ∧
      (if e.isPuller then 1 else 0) + t.puller.untilPop ≤ w.delegate.puller.untilPop := by
    intro hother hsame
    refine ⟨hserves.of_same hsame, ?_⟩
    rw [hother, hsame.puller]
    simp
  cases step_move ht with
  | wait created => exact .inr (hsame rfl ⟨rfl, id, id⟩)
  | queue e waiting created he =>
      have hqueue := sameService_queueBuffer { w.delegate with waiting := waiting } created
      have hother : e.isPuller = false := by rcases he with rfl | rfl <;> rfl
      exact .inr (hsame hother ⟨hqueue.puller, hqueue.ready, hqueue.server⟩)
  | startFlushing => exact .inl (hnotified (notifies_startFlushing hw hasleep) h)
  | pausedToReady => exact .inl (hnotified rfl h)
  | flushServer => cases hquiet
  | stopFlushing | readyToPaused => exact .inr (hsame rfl ⟨rfl, id, id⟩)
  | handleFlushCompleted => exact .inr (hsame rfl ⟨rfl, id, fun _ ↦ rfl⟩)
  | setEos => exact .inr (hsame rfl ⟨rfl, fun _ ↦ rfl, id⟩)
  | setSegment => exact .inr (hsame rfl ⟨rfl, fun _ ↦ Bool.or_true _, id⟩)
  | pull hmove =>
      rcases hmove.serves hserves (hw.full hasleep) hquiet with rfl | ⟨hnext, hless⟩
      · exact .inl (hnotified rfl h)
      · refine .inr ⟨hnext, ?_⟩
        change _ + t.puller.untilPop ≤ _
        split <;> omega

/-- The puller is never stuck while it serves a sample. -/
theorem IsServing.enabled {s : State} (hs : IsServing s) :
    ∃ e : Event, e.isPuller = true ∧ e.disturbs = false ∧ (s.step e).isSome = true := by
  cases hs with
  | loop p hpc hframe hready => exact ⟨.isReadyToSendData, rfl, rfl, by
      simp [State.step, State.pull, hpc, hframe, hready]⟩
  | front p hpc =>
      refine ⟨.getFrontSample, rfl, rfl, ?_⟩
      simp only [State.step, State.pull, hpc]
      cases s.getFrontSample <;> rfl
  | map p k hpc => exact ⟨.map true, rfl, rfl, by simp [State.step, State.pull, hpc]⟩
  | parse p k hpc => exact ⟨.parseBuffer true, rfl, rfl, by simp [State.step, State.pull, hpc]⟩
  | add p k hpc => exact ⟨.addSegment .ok, rfl, rfl, by simp [State.step, State.pull, hpc]⟩
  | pop p k outcome hpc => exact ⟨.popSample, rfl, rfl, by simp [State.step, State.pull, hpc]⟩

theorem PullerPc.untilPop_le (pc : PullerPc) : pc.untilPop ≤ 6 := by
  cases pc <;> simp [untilPop]

/-! ## Runs -/

/-- The thread sleeps, and the server leaves the puller alone. -/
def LeftAlone (w : Watched) (e : Event) : Prop :=
  w.asleep = true ∧ e.disturbs = false

instance (w : Watched) (e : Event) : Decidable (LeftAlone w e) :=
  inferInstanceAs (Decidable (_ ∧ _))

/-- What the streaming thread relies on while it sleeps: the queue is full; a flush, a
state change to READY and a pop wake it up; and the puller, once it serves a sample, has
at most six steps to go until then, of which one can always be taken. -/
structure Wakeable (w : Watched) : Prop where
  full : w.asleep = true → maxInternalBuffersQueueSize ≤ w.delegate.samples.length
  woken : w.asleep = true → ∀ e ∈ [Event.startFlushing, .pausedToReady, .popSample], ∀ u,
    watched.step w e = some u → u.asleep = false
  served : w.asleep = true → IsServing w.delegate → ∀ es u,
    (watched.restrict LeftAlone).run w es = some u → es.countP Event.isPuller ≤ 6 ∧
      (u.asleep = true → ∃ e, e.isPuller = true ∧ LeftAlone u e ∧
        (watched.step u e).isSome = true)

/-- As long as the thread sleeps it is being served. -/
structure Served (w : Watched) : Prop extends Sleeping w where
  serves : w.asleep = true → IsServing w.delegate

/-- How many steps the puller takes at most until the thread is woken up. -/
def Watched.untilWoken (w : Watched) : ℕ :=
  if w.asleep then w.delegate.puller.untilPop else 0

theorem served_step {w u : Watched} {e : Event} (hw : Served w)
    (h : (watched.restrict LeftAlone).step w e = some u) :
    Served u ∧ (if e.isPuller then 1 else 0) + u.untilWoken ≤ w.untilWoken := by
  obtain ⟨⟨hasleep, hquiet⟩, hstep⟩ := watched.restrict_step_eq_some_iff.mp h
  have hsleeping := sleeping_step hw.toSleeping hstep
  have hserves := hw.serves hasleep
  rw [Watched.untilWoken, Watched.untilWoken, if_pos hasleep]
  rcases serves_step hw.toSleeping hasleep hserves hquiet hstep with hwoken | ⟨hnext, hless⟩
  · refine ⟨⟨hsleeping, fun hstill ↦ absurd hstill (Bool.eq_false_iff.mp hwoken)⟩, ?_⟩
    rw [hwoken, if_neg Bool.false_ne_true]
    -- a step of the puller is one of those that were left
    cases hpuller : e.isPuller with
    | false => exact Nat.zero_le _
    | true => cases hserves <;> simp_all [PullerPc.untilPop]
  · refine ⟨⟨hsleeping, fun _ ↦ hnext⟩, ?_⟩
    refine Nat.le_trans (Nat.add_le_add_left ?_ _) hless
    split
    · exact Nat.le_refl _
    · exact Nat.zero_le _

theorem Sleeping.wakeable {w : Watched} (hw : Sleeping w) : Wakeable w := by
  refine ⟨hw.full, fun hasleep e he u h ↦ ?_, fun hasleep hserves es u hrun ↦ ?_⟩
  · apply not_asleep_of_notifies ?_ h
    simp only [List.mem_cons, List.not_mem_nil, or_false] at he
    rcases he with rfl | rfl | rfl
    · exact notifies_startFlushing hw hasleep
    · rfl
    · rfl
  · have hserved : Served w := ⟨hw, fun _ ↦ hserves⟩
    have hcount := Machine.countP_le_of_measure (watched.restrict LeftAlone) (I := Served)
      (μ := Watched.untilWoken) (fun _ _ _ hw h ↦ (served_step hw h).1)
      (fun _ _ _ hw h ↦ (served_step hw h).2) hserved hrun
    constructor
    · have hleft : w.untilWoken ≤ 6 := by
        rw [Watched.untilWoken, if_pos hasleep]
        exact w.delegate.puller.untilPop_le
      omega
    · intro hstill
      have hu := (watched.restrict LeftAlone).invariant (I := Served)
        (fun _ _ _ hw h ↦ (served_step hw h).1) hserved hrun
      obtain ⟨e, hpuller, hquiet, henabled⟩ := (hu.serves hstill).enabled
      refine ⟨e, hpuller, ⟨hstill, hquiet⟩, ?_⟩
      change ((u.delegate.step e).map (u.after e)).isSome = true
      rw [Option.isSome_map]
      exact henabled

theorem sleeping_start : Sleeping {} :=
  ⟨fun _ ↦ rfl, by rintro ⟨⟩⟩

/-- Whatever the streaming thread, the puller, flushes and state changes do in turn. -/
theorem always_wakeable (es : List Event) : watched.Always Wakeable {} es := by
  intro pre w _ hrun
  apply Sleeping.wakeable
  exact watched.invariant (fun _ _ _ hw h ↦ sleeping_step hw h) sleeping_start hrun

/-- The queue is full, and the puller has given its front sample to the server. -/
example : ((watched.run {} (.setSegment :: List.replicate 25 (.handleBuffer true) ++
    [.pullBuffer 1, .isReadyToSendData, .getFrontSample, .map true, .parseBuffer true,
      .addSegment .ok])).map fun w ↦ (w.asleep, w.delegate.puller.untilPop)) =
    some (true, 1) := by
  decide +kernel

end RialtoGStreamer.PullMode
