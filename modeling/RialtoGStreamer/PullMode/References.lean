import RialtoGStreamer.Library.Counted
import RialtoGStreamer.PullMode.Capacity
import RialtoGStreamer.PullMode.Conservation

/-!
# References to the samples and buffers of a pull-mode sink

The queue owns a reference to each of its samples, and the iteration of the
puller one to the sample that it obtained, which a flush may free in the queue
meanwhile. Every sample holds its buffer and its caps, `m_lastBuffer` another
reference to a buffer, and the caller of `handleBuffer` passes one on. The steps
that the puller takes outside the delegate, the end of a mapping and the
destructor of its `GstRefSample`, are steps of their own.
-/

namespace RialtoGStreamer.PullMode

open Library

inductive Resource where
  | buffer (pointer : ℕ)
  | caps (pointer : ℕ)
  deriving DecidableEq

def bufferOf (buffer : Option ℕ) : List Resource :=
  (buffer.map .buffer).toList

def capsOf (caps : Option ℕ) : List Resource :=
  (caps.map .caps).toList

/-- A `GstSample` under the number of its place in the order of arrival. -/
structure Sample where
  number : ℕ
  buffer : ℕ
  caps : Option ℕ
  deriving DecidableEq

/-- What `gst_sample_new` takes references to. -/
def Sample.content (sample : Sample) : List Resource :=
  .buffer sample.buffer :: capsOf sample.caps

/-- The delegate with its pointers: `waitingBuffer` is the argument of a
`handleBuffer` that waits, `sample` the `GstRefSample` of the puller, and `map`
the buffer that it has mapped. -/
structure References where
  delegate : State := {}
  samples : List Sample := []
  caps : Option ℕ := none
  enableLastSample : Bool := false
  lastBuffer : Option ℕ := none
  waitingBuffer : Option ℕ := none
  sample : Option Sample := none
  map : Option ℕ := none
  counted : Counted Sample Resource := {}
  mappings : Ledger ℕ := {}
  destroyed : Bool := false

/-- `equal` is the answer of `gst_caps_is_equal`, and `copy` the new caps. -/
inductive ReferenceEvent where
  | delegate (event : Event) (buffer : ℕ)
  | caps (equal : Bool) (copy : ℕ)
  | setEnableLastSample (value : Bool)
  | unmap
  | releaseSample
  | destroy

namespace References

def setLastBuffer (s : References) (buffer : Option ℕ) : References :=
  if s.enableLastSample then
    { s with
      lastBuffer := buffer
      counted := (s.counted.drop (bufferOf s.lastBuffer)).hold (bufferOf buffer) }
  else s

def clearBuffersUnlocked (s : References) : References :=
  { s with
    samples := []
    counted := s.counted.unrefAll Sample.content s.samples }.setLastBuffer none

/-- `gst_sample_new(buffer, m_caps, &m_lastSegment, nullptr)`. -/
def newSample (s : References) (buffer : ℕ) : Sample where
  number := s.delegate.arrived
  buffer := buffer
  caps := s.caps

def pushSample (s : References) (sample : Sample) : References :=
  { s with samples := s.samples ++ [sample], counted := s.counted.make Sample.content sample }

def unrefBuffer (s : References) (buffer : ℕ) : References :=
  { s with counted := s.counted.drop [.buffer buffer] }

/-- The rest of `handleBuffer`, which gives up the reference it was passed. -/
def queueBuffer (s : References) (buffer : ℕ) (created : Bool) : References :=
  if s.delegate.isSinkFlushOngoing then s.unrefBuffer buffer
  else
    let queued := if created then s.pushSample (s.newSample buffer) else s
    (queued.setLastBuffer (some buffer)).unrefBuffer buffer

def handleBuffer (s : References) (buffer : ℕ) (created : Bool) : References :=
  let passed := { s with counted := s.counted.hold [.buffer buffer] }
  if s.delegate.samples.length ≥ maxInternalBuffersQueueSize then
    { passed with waitingBuffer := some buffer }
  else passed.queueBuffer buffer created

def getFrontSample (s : References) : References :=
  if s.delegate.isServerFlushOngoing then s
  else
    match s.samples with
    | [] => s
    | sample :: _ => { s with sample := some sample, counted := s.counted.ref sample }

def popSample (s : References) : References :=
  match s.samples with
  | [] => s
  | sample :: samples =>
      { s with samples := samples, counted := s.counted.unref Sample.content sample }

/-- `gst_buffer_map` on the buffer of the sample. -/
def mapBuffer (s : References) : References :=
  match s.sample with
  | none => s
  | some sample =>
      { s with map := some sample.buffer, mappings := s.mappings.gain sample.buffer }

/-- The pointers and the references after an event of the delegate. -/
def account (s : References) (buffer : ℕ) : Event → References
  | .handleBuffer created => s.handleBuffer buffer created
  | .wake created =>
      match s.waitingBuffer with
      | none => s
      | some waiting => { s with waitingBuffer := none }.queueBuffer waiting created
  | .startFlushing => if s.delegate.isSinkFlushOngoing then s else s.clearBuffersUnlocked
  | .pausedToReady => s.clearBuffersUnlocked
  | .getFrontSample => s.getFrontSample
  | .map true => s.mapBuffer
  | .popSample => s.popSample
  | _ => s

/-- The buffer is unmapped before its sample is popped, and the `GstRefSample`
is gone before the next iteration or the answer. -/
def permits (s : References) : Event → Bool
  | .popSample => s.map.isNone
  | .isReadyToSendData | .postHaveData => s.sample.isNone
  | _ => true

def setCaps (s : References) (equal : Bool) (copy : ℕ) : References :=
  match s.caps with
  | none => { s with caps := some copy, counted := s.counted.hold [.caps copy] }
  | some caps =>
      if equal then s
      else
        { s with
          caps := some copy, counted := (s.counted.drop [.caps caps]).hold [.caps copy] }

def setEnableLastSample (s : References) (value : Bool) : References :=
  if value then { s with enableLastSample := true }
  else
    { s with
      enableLastSample := false, lastBuffer := none
      counted := s.counted.drop (bufferOf s.lastBuffer) }

/-- The destructor, once neither the puller nor the streaming thread has a
pointer to the delegate. -/
def destroy (s : References) : References :=
  { s with
    delegate := s.delegate.clearBuffersUnlocked
    caps := none
    counted := s.counted.drop (capsOf s.caps)
    destroyed := true }.clearBuffersUnlocked

/-- The puller has used the mapped buffer. -/
def isUsed (s : References) : Bool :=
  match s.delegate.puller with
  | .pop _ _ _ | .done _ => true
  | _ => false

/-- The puller leaves the iteration. -/
def isLeaving (s : References) : Bool :=
  match s.delegate.puller with
  | .loop _ | .done _ => true
  | _ => false

def step (s : References) : ReferenceEvent → Option References
  | .delegate event buffer =>
      if s.destroyed then none
      else if s.permits event then
        (s.delegate.step event).map fun delegate ↦ { s.account buffer event with delegate }
      else none
  | .caps equal copy => if s.destroyed then none else some (s.setCaps equal copy)
  | .setEnableLastSample value =>
      if s.destroyed then none else some (s.setEnableLastSample value)
  | .unmap =>
      match s.map with
      | none => none
      | some buffer =>
          if s.isUsed then
            some { s with map := none, mappings := s.mappings.release buffer }
          else none
  | .releaseSample =>
      match s.sample with
      | none => none
      | some sample =>
          if s.map.isNone ∧ s.isLeaving then
            some { s with
              sample := none, counted := s.counted.unref Sample.content sample }
          else none
  | .destroy =>
      if s.destroyed ∨ s.delegate.puller ≠ .idle ∨ s.delegate.waiting then none
      else some s.destroy

end References

def references : Machine References ReferenceEvent where
  step := References.step

namespace References

/-- The references to samples. -/
def refs (s : References) : List Sample :=
  s.samples ++ s.sample.toList

/-- The references to buffers and caps that are not those of a sample. -/
def others (s : References) : List Resource :=
  bufferOf s.lastBuffer ++ (bufferOf s.waitingBuffer ++ capsOf s.caps)

end References

/-- The `GstRefSample` and the mapping of the puller, by where it is. -/
def Serves (sample : Option Sample) (map : Option ℕ) : PullerPc → Prop
  | .idle | .front _ | .eos _ => sample = none ∧ map = none
  | .loop _ => map = none
  | .map _ k => ∃ g, sample = some g ∧ g.number = k ∧ map = none
  | .parse _ k | .add _ k => ∃ g, sample = some g ∧ g.number = k ∧ map = some g.buffer
  | .pop _ k _ => ∃ g, sample = some g ∧ g.number = k ∧ (map = none ∨ map = some g.buffer)
  | .done _ => map = none ∨ ∃ g, sample = some g ∧ map = some g.buffer

/-- The pointers are backed by references, and the numbers of the samples are
those of the delegate. -/
structure Backed (s : References) : Prop where
  numbers : s.samples.map (·.number) = s.delegate.samples
  bounded : ∀ g ∈ s.refs, g.number < s.delegate.arrived
  holds : s.counted.Holds Sample.content s.refs s.others
  mappings : s.mappings.Owns s.map.toList
  last : s.enableLastSample = false → s.lastBuffer = none
  waiting : s.waitingBuffer.isSome = s.delegate.waiting
  serves : Serves s.sample s.map s.delegate.puller
  settled : s.destroyed = true → s.refs = [] ∧ s.others = [] ∧ s.map = none

/-! ## The operations -/

theorem setLastBuffer_spec {s : References} {refs : List Sample} {rest : List Resource}
    (hlast : s.enableLastSample = false → s.lastBuffer = none)
    (h : s.counted.Holds Sample.content refs (bufferOf s.lastBuffer ++ rest))
    (buffer : Option ℕ) :
    ∃ last counted, s.setLastBuffer buffer = { s with lastBuffer := last, counted := counted } ∧
      counted.Holds Sample.content refs (bufferOf last ++ rest) ∧
      (s.enableLastSample = false → last = none) ∧ (buffer = none → last = none) := by
  unfold References.setLastBuffer
  split
  · next henable =>
      refine ⟨buffer, _, rfl, h.drop.hold (bufferOf buffer), ?_, id⟩
      exact fun hdisabled ↦ absurd (henable.symm.trans hdisabled) (by decide)
  · next henable =>
      have hnone := hlast (Bool.eq_false_iff.mpr henable)
      exact ⟨s.lastBuffer, s.counted, rfl, h, fun _ ↦ hnone, fun _ ↦ hnone⟩

theorem clearBuffersUnlocked_spec {s : References} {refs : List Sample} {rest : List Resource}
    (hlast : s.enableLastSample = false → s.lastBuffer = none)
    (h : s.counted.Holds Sample.content (s.samples ++ refs) (bufferOf s.lastBuffer ++ rest)) :
    ∃ counted, s.clearBuffersUnlocked =
        { s with samples := [], lastBuffer := none, counted := counted } ∧
      counted.Holds Sample.content refs rest := by
  have hcleared := h.unrefAll
  obtain ⟨last, counted, heq, hholds, -, hnone⟩ := setLastBuffer_spec (s := { s with
    samples := [], counted := s.counted.unrefAll Sample.content s.samples }) hlast hcleared none
  obtain rfl := hnone rfl
  exact ⟨counted, heq, hholds⟩

/-- Behind the push of the sample, if there is one. -/
theorem unrefBuffer_spec {s : References} {refs : List Sample} {rest : List Resource}
    {buffer : ℕ} (hlast : s.enableLastSample = false → s.lastBuffer = none)
    (h : s.counted.Holds Sample.content refs (.buffer buffer :: (bufferOf s.lastBuffer ++ rest))) :
    ∃ last counted, (s.setLastBuffer (some buffer)).unrefBuffer buffer =
        { s with lastBuffer := last, counted := counted } ∧
      counted.Holds Sample.content refs (bufferOf last ++ rest) ∧
      (s.enableLastSample = false → last = none) := by
  obtain ⟨last, counted, heq, hholds, hlast', -⟩ :=
    setLastBuffer_spec hlast (h.perm (.refl _) List.perm_middle.symm) (some buffer)
  refine ⟨last, counted.drop [.buffer buffer], ?_, ?_, hlast'⟩
  · rw [heq]
    rfl
  · exact Counted.Holds.drop (hholds.perm (.refl _) List.perm_middle)

theorem queueBuffer_spec {s : References} {refs : List Sample} {rest : List Resource}
    {buffer : ℕ} (created : Bool)
    (hlast : s.enableLastSample = false → s.lastBuffer = none)
    (hbounded : ∀ g ∈ s.samples ++ refs, g.number < s.delegate.arrived)
    (h : s.counted.Holds Sample.content (s.samples ++ refs)
      (.buffer buffer :: (bufferOf s.lastBuffer ++ rest))) :
    ∃ samples last counted, s.queueBuffer buffer created =
        { s with samples := samples, lastBuffer := last, counted := counted } ∧
      counted.Holds Sample.content (samples ++ refs) (bufferOf last ++ rest) ∧
      (s.enableLastSample = false → last = none) ∧
      samples = if s.delegate.isSinkFlushOngoing = false ∧ created = true then
          s.samples ++ [s.newSample buffer]
        else s.samples := by
  unfold References.queueBuffer
  split
  · next hflush =>
      refine ⟨s.samples, s.lastBuffer, _, rfl, ?_, hlast, by simp [hflush]⟩
      exact Counted.Holds.drop h
  · next hflush =>
      have hgoing := Bool.eq_false_iff.mpr hflush
      cases created with
      | false =>
          obtain ⟨last, counted, heq, hholds, hlast'⟩ := unrefBuffer_spec hlast h
          exact ⟨s.samples, last, counted, heq, hholds, hlast', by simp⟩
      | true =>
          -- The number of the new sample is larger than those of the others.
          have hnew : s.newSample buffer ∉ s.samples ++ refs :=
            fun hmem ↦ Nat.lt_irrefl _ (hbounded _ hmem)
          have hpushed : ((s.counted.make Sample.content (s.newSample buffer))).Holds Sample.content
              (s.samples ++ [s.newSample buffer] ++ refs)
              (.buffer buffer :: (bufferOf s.lastBuffer ++ rest)) := by
            apply (h.make hnew).perm _ (.refl _)
            rw [List.append_assoc]
            exact List.perm_middle.symm
          obtain ⟨last, counted, heq, hholds, hlast'⟩ :=
            unrefBuffer_spec (s := s.pushSample (s.newSample buffer)) hlast hpushed
          exact ⟨_, last, counted, heq, hholds, hlast', (if_pos ⟨hgoing, rfl⟩).symm⟩

/-! ## One step -/

/-- The sample that the delegate numbers next. -/
theorem samples_queueBuffer (s : State) (created : Bool) :
    (s.queueBuffer created).2.samples =
      if s.isSinkFlushOngoing = false ∧ created = true then s.samples ++ [s.arrived]
      else s.samples := by
  unfold State.queueBuffer
  cases s.isSinkFlushOngoing <;> cases created <;> rfl

theorem arrived_queueBuffer (s : State) (created : Bool) :
    (s.queueBuffer created).2.arrived =
      if s.isSinkFlushOngoing = false ∧ created = true then s.arrived + 1 else s.arrived := by
  unfold State.queueBuffer
  cases s.isSinkFlushOngoing <;> cases created <;> rfl

theorem puller_queueBuffer (s : State) (created : Bool) :
    (s.queueBuffer created).2.puller = s.puller := by
  unfold State.queueBuffer
  cases s.isSinkFlushOngoing <;> cases created <;> rfl

/-- A buffer that was passed on is queued, or refused; the delegate counts on. -/
theorem backed_queueBuffer {s : References} {buffer : ℕ} (created : Bool)
    (hlive : s.destroyed = false) (hnumbers : s.samples.map (·.number) = s.delegate.samples)
    (hbounded : ∀ g ∈ s.refs, g.number < s.delegate.arrived)
    (hholds : s.counted.Holds Sample.content s.refs
      (.buffer buffer :: (bufferOf s.lastBuffer ++ capsOf s.caps)))
    (hmappings : s.mappings.Owns s.map.toList)
    (hlast : s.enableLastSample = false → s.lastBuffer = none) (hwaiting : s.waitingBuffer = none)
    (hserves : Serves s.sample s.map s.delegate.puller) {d : State}
    (hd : d = { s.delegate with waiting := false }) :
    Backed { s.queueBuffer buffer created with delegate := (d.queueBuffer created).2 } := by
  subst hd
  obtain ⟨samples, last, counted, heq, hholds', hlast', hsamples⟩ :=
    queueBuffer_spec created hlast hbounded hholds
  rw [heq]
  have hnew : ∀ g ∈ samples ++ s.sample.toList,
      g.number < ({ s.delegate with waiting := false }.queueBuffer created).2.arrived := by
    intro g hg
    rw [arrived_queueBuffer]
    rcases List.mem_append.mp hg with hg | hg
    · rw [hsamples] at hg
      split at hg
      · next hcreated =>
          rw [if_pos hcreated]
          rcases List.mem_append.mp hg with hg | hg
          · exact Nat.lt_succ_of_lt (hbounded g (List.mem_append_left _ hg))
          · obtain rfl := List.mem_singleton.mp hg
            exact Nat.lt_succ_self _
      · next hcreated =>
          rw [if_neg hcreated]
          exact hbounded g (List.mem_append_left _ hg)
    · have hold := hbounded g (List.mem_append_right _ hg)
      split
      · exact Nat.lt_succ_of_lt hold
      · exact hold
  refine ⟨?_, hnew, ?_, hmappings, hlast', ?_, ?_, ?_⟩
  · change samples.map (·.number) = _
    rw [samples_queueBuffer, hsamples, ← hnumbers]
    split
    · rw [List.map_append]
      rfl
    · rfl
  · simpa [References.others, References.refs, hwaiting, bufferOf] using hholds'
  · change s.waitingBuffer.isSome = _
    rw [waiting_queueBuffer, hwaiting]
    rfl
  · change Serves s.sample s.map _
    rw [puller_queueBuffer]
    exact hserves
  · simp [hlive]

theorem backed_clearBuffersUnlocked {s : References} {t : State} (hs : Backed s)
    (hlive : s.destroyed = false) (hsamples : t.samples = [])
    (harrived : t.arrived = s.delegate.arrived) (hwaiting : t.waiting = s.delegate.waiting)
    (hpuller : t.puller = s.delegate.puller) :
    Backed { s.clearBuffersUnlocked with delegate := t } := by
  obtain ⟨counted, heq, hholds⟩ := clearBuffersUnlocked_spec hs.last hs.holds
  rw [heq]
  refine ⟨hsamples.symm, ?_, hholds, hs.mappings, fun _ ↦ rfl, hs.waiting.trans hwaiting.symm,
    ?_, ?_⟩
  · intro g hg
    rw [harrived]
    exact hs.bounded g (List.mem_append_right _ hg)
  · rw [hpuller]
    exact hs.serves
  · simp [hlive]

/-- A step that moves the puller at most. -/
theorem Backed.move {s : References} {t : State} (hs : Backed s) (hlive : s.destroyed = false)
    (hsamples : t.samples = s.delegate.samples) (harrived : t.arrived = s.delegate.arrived)
    (hwaiting : t.waiting = s.delegate.waiting) (hserves : Serves s.sample s.map t.puller) :
    Backed { s with delegate := t } := by
  refine ⟨hs.numbers.trans hsamples.symm, ?_, hs.holds, hs.mappings, hs.last,
    hs.waiting.trans hwaiting.symm, hserves, ?_⟩
  · intro g hg
    rw [harrived]
    exact hs.bounded g hg
  · simp [hlive]

theorem backed_obtain {s : References} (hs : Backed s) (hlive : s.destroyed = false) {p : Pull}
    {k : ℕ} (hpc : s.delegate.puller = .front p)
    (hserver : s.delegate.isServerFlushOngoing = false)
    (hk : s.delegate.samples.head? = some k) :
    Backed { s.getFrontSample with
      delegate := { s.delegate with puller := .map p k, overtaken := false } } := by
  have hserves := hs.serves
  rw [hpc] at hserves
  obtain ⟨hnone, hmap⟩ := hserves
  have hnumbers := hs.numbers
  cases hqueue : s.samples with
  | nil =>
      rw [← hnumbers, hqueue] at hk
      cases hk
  | cons g samples =>
      have hnumber : g.number = k := by
        rw [← hnumbers, hqueue] at hk
        exact Option.some.inj hk
      have hfront : s.getFrontSample =
          { s with sample := some g, counted := s.counted.ref g } := by
        unfold References.getFrontSample
        rw [hserver, hqueue]
        rfl
      have hrefs : s.refs = s.samples := by
        unfold References.refs
        rw [hnone]
        exact List.append_nil _
      have hmem : g ∈ s.refs := by
        rw [hrefs, hqueue]
        exact List.mem_cons_self
      rw [hfront]
      refine ⟨hnumbers, ?_, ?_, hs.mappings, hs.last, hs.waiting, ⟨g, rfl, hnumber, hmap⟩, ?_⟩
      · intro g' hg'
        apply hs.bounded g'
        rcases List.mem_append.mp hg' with hg' | hg'
        · exact List.mem_append_left _ hg'
        · obtain rfl := List.mem_singleton.mp hg'
          exact hmem
      · apply (hs.holds.ref hmem).perm _ (.refl _)
        rw [hrefs]
        exact (List.perm_append_singleton g s.samples).symm
      · simp [hlive]

theorem backed_map {s : References} (hs : Backed s) (hlive : s.destroyed = false) {p : Pull}
    {k : ℕ} (hpc : s.delegate.puller = .map p k) :
    Backed { s.mapBuffer with delegate := { s.delegate with puller := .parse p k } } := by
  have hserves := hs.serves
  rw [hpc] at hserves
  obtain ⟨g, hsample, hnumber, hmap⟩ := hserves
  have hmapped : s.mapBuffer =
      { s with map := some g.buffer, mappings := s.mappings.gain g.buffer } := by
    unfold References.mapBuffer
    rw [hsample]
  have hmappings := hs.mappings
  rw [hmap] at hmappings
  rw [hmapped]
  refine ⟨hs.numbers, hs.bounded, hs.holds, hmappings.gain g.buffer, hs.last, hs.waiting,
    ⟨g, hsample, hnumber, rfl⟩, by simp [hlive]⟩

theorem backed_pop {s : References} (hs : Backed s) (hlive : s.destroyed = false) (k : ℕ)
    (outcome : Outcome) (pc : PullerPc) (hserves : Serves s.sample s.map pc) :
    Backed { s.popSample with
      delegate := { s.delegate.popSample k outcome with puller := pc } } := by
  have hnumbers := hs.numbers
  have hholds := hs.holds
  have hbounded := hs.bounded
  unfold References.refs at hholds hbounded
  unfold References.popSample State.popSample
  cases hqueue : s.samples with
  | nil =>
      rw [hqueue] at hnumbers
      rw [← hnumbers]
      exact hs.move hlive rfl rfl rfl hserves
  | cons g samples =>
      rw [hqueue] at hnumbers hholds hbounded
      rw [← hnumbers]
      refine ⟨rfl, ?_, hholds.unref, hs.mappings, hs.last, hs.waiting, hserves, ?_⟩
      · exact fun g' hg' ↦ hbounded g' (List.mem_cons_of_mem _ hg')
      · simp [hlive]

theorem backed_of_pull {s : References} {t : State} {e : Event} {buffer : ℕ} (hs : Backed s)
    (hlive : s.destroyed = false) (hpermits : s.permits e = true)
    (hmove : PullMove s.delegate e t) : Backed { s.account buffer e with delegate := t } := by
  have hserves := hs.serves
  cases hmove with
  | begin frameCount hpc =>
      rw [hpc] at hserves
      exact hs.move hlive rfl rfl rfl hserves.2
  | ready p hpc =>
      rw [hpc] at hserves
      exact hs.move hlive rfl rfl rfl ⟨Option.isNone_iff_eq_none.mp hpermits, hserves⟩
  | leave p hpc =>
      rw [hpc] at hserves
      exact hs.move hlive rfl rfl rfl (.inl hserves)
  | obtain p k hpc hserver hk => exact backed_obtain hs hlive hpc hserver hk
  | nothing p hpc hnone =>
      rw [hpc] at hserves
      have hfront : s.getFrontSample = s := by
        unfold State.getFrontSample at hnone
        unfold References.getFrontSample
        split
        · rfl
        · next hserver =>
            rw [if_neg hserver, List.head?_eq_none_iff, ← hs.numbers, List.map_eq_nil_iff] at hnone
            rw [hnone]
      change Backed { s.getFrontSample with delegate := _ }
      rw [hfront]
      exact hs.move hlive rfl rfl rfl hserves
  | isEos p hpc =>
      rw [hpc] at hserves
      exact hs.move hlive rfl rfl rfl (.inl hserves.2)
  | map p k hpc => exact backed_map hs hlive hpc
  | unmapped p k hpc =>
      rw [hpc] at hserves
      obtain ⟨g, hsample, hnumber, hmap⟩ := hserves
      exact hs.move hlive rfl rfl rfl ⟨g, hsample, hnumber, .inl hmap⟩
  | parse p k hpc =>
      rw [hpc] at hserves
      exact hs.move hlive rfl rfl rfl hserves
  | unparsed p k hpc =>
      rw [hpc] at hserves
      obtain ⟨g, hsample, hnumber, hmap⟩ := hserves
      exact hs.move hlive rfl rfl rfl ⟨g, hsample, hnumber, .inr hmap⟩
  | noSpace p k hpc =>
      rw [hpc] at hserves
      obtain ⟨g, hsample, hnumber, hmap⟩ := hserves
      exact hs.move hlive rfl rfl rfl (.inr ⟨g, hsample, hmap⟩)
  | give p k status hstatus hpc =>
      rw [hpc] at hserves
      obtain ⟨g, hsample, hnumber, hmap⟩ := hserves
      exact hs.move hlive rfl rfl rfl ⟨g, hsample, hnumber, .inr hmap⟩
  | pop p k outcome hpc =>
      exact backed_pop hs hlive k outcome _ (Option.isNone_iff_eq_none.mp hpermits)
  | post p hpc =>
      rw [hpc] at hserves
      have hnone : s.sample = none := Option.isNone_iff_eq_none.mp hpermits
      have hmap : s.map = none := by
        rcases hserves with hmap | ⟨g, hsample, -⟩
        · exact hmap
        · exact absurd (hsample.symm.trans hnone) (by simp)
      exact hs.move hlive rfl rfl rfl (t := { s.delegate with puller := .idle, answers := _ })
        ⟨hnone, hmap⟩

theorem waitingBuffer_eq_none {s : References} (hs : Backed s)
    (hwaiting : s.delegate.waiting = false) : s.waitingBuffer = none := by
  have hnone := hs.waiting.trans hwaiting
  exact Option.not_isSome_iff_eq_none.mp (Bool.eq_false_iff.mp hnone)

theorem backed_handleBuffer {s : References} {t : State} {buffer : ℕ} {created : Bool}
    (hs : Backed s) (hlive : s.destroyed = false)
    (hstep : s.delegate.step (.handleBuffer created) = some t) :
    Backed { s.handleBuffer buffer created with delegate := t } := by
  obtain ⟨hwaiting, hmove⟩ := handleBuffer_cases hstep
  have hnone := waitingBuffer_eq_none hs hwaiting
  have hpassed := hs.holds.hold [.buffer buffer]
  unfold References.handleBuffer
  rcases hmove with ⟨hfull, rfl⟩ | ⟨hroom, rfl⟩
  · rw [if_pos hfull]
    refine ⟨hs.numbers, hs.bounded, ?_, hs.mappings, hs.last, rfl, hs.serves, by simp [hlive]⟩
    apply hpassed.perm (.refl _)
    simp only [References.others, hnone]
    change (.buffer buffer :: (bufferOf s.lastBuffer ++ capsOf s.caps)).Perm
      (bufferOf s.lastBuffer ++ .buffer buffer :: capsOf s.caps)
    exact List.perm_middle.symm
  · rw [if_neg (Nat.not_le.mpr hroom)]
    have hdelegate : s.delegate = { s.delegate with waiting := false } := by
      rw [← hwaiting]
    simp only [References.others, hnone] at hpassed
    have hqueued := backed_queueBuffer
      (s := { s with counted := s.counted.hold [.buffer buffer] }) created hlive hs.numbers
      hs.bounded hpassed hs.mappings hs.last hnone hs.serves hdelegate
    exact hqueued

theorem backed_wake {s : References} {t : State} {buffer : ℕ} {created : Bool}
    (hs : Backed s) (hlive : s.destroyed = false)
    (hstep : s.delegate.step (.wake created) = some t) :
    Backed { s.account buffer (.wake created) with delegate := t } := by
  obtain ⟨hwaiting, rfl⟩ := wake_cases hstep
  have hsome := hs.waiting.trans hwaiting
  obtain ⟨waiting, hwaiting'⟩ := Option.isSome_iff_exists.mp hsome
  have hholds := hs.holds
  simp only [References.account, hwaiting']
  have hpassed : s.counted.Holds Sample.content s.refs
      (.buffer waiting :: (bufferOf s.lastBuffer ++ capsOf s.caps)) := by
    apply hholds.perm (.refl _)
    simp only [References.others, hwaiting']
    exact List.perm_middle
  have hqueued := backed_queueBuffer (s := { s with waitingBuffer := none }) created hlive
    hs.numbers hs.bounded hpassed hs.mappings hs.last rfl hs.serves rfl
  exact hqueued

theorem backed_of_delegate {s : References} {t : State} {e : Event} {buffer : ℕ} (hs : Backed s)
    (hlive : s.destroyed = false) (hpermits : s.permits e = true)
    (hstep : s.delegate.step e = some t) :
    Backed { s.account buffer e with delegate := t } := by
  cases e with
  | handleBuffer created => exact backed_handleBuffer hs hlive hstep
  | wake created => exact backed_wake hs hlive hstep
  | startFlushing =>
      cases hstep
      simp only [References.account, State.startFlushing]
      split
      · exact hs
      · exact backed_clearBuffersUnlocked hs hlive rfl rfl rfl rfl
  | pausedToReady =>
      cases hstep
      exact backed_clearBuffersUnlocked hs hlive rfl rfl rfl rfl
  | flushServer | stopFlushing | handleFlushCompleted | setEos | setSegment | readyToPaused =>
      cases hstep
      exact hs.move hlive rfl rfl rfl hs.serves
  | pullBuffer | isReadyToSendData | getFrontSample | isEos | map | parseBuffer | addSegment
  | popSample | postHaveData => exact backed_of_pull hs hlive hpermits (pull_move hstep)

theorem backed_setCaps {s : References} (hs : Backed s) (hlive : s.destroyed = false)
    (equal : Bool) (copy : ℕ) : Backed (s.setCaps equal copy) := by
  -- The caps stand behind the buffers among the other references.
  have hsplit : ∀ caps : Option ℕ, (capsOf caps ++
      (bufferOf s.lastBuffer ++ bufferOf s.waitingBuffer)).Perm
        (bufferOf s.lastBuffer ++ (bufferOf s.waitingBuffer ++ capsOf caps)) := by
    intro caps
    rw [← List.append_assoc (bufferOf s.lastBuffer)]
    exact List.perm_append_comm
  have hholds := hs.holds.perm (.refl _) (hsplit s.caps).symm
  have hset : ∀ counted : Counted Sample Resource,
      counted.Holds Sample.content s.refs
        (capsOf (some copy) ++ (bufferOf s.lastBuffer ++ bufferOf s.waitingBuffer)) →
      Backed { s with caps := some copy, counted := counted } := by
    intro counted h
    exact ⟨hs.numbers, hs.bounded, h.perm (.refl _) (hsplit _), hs.mappings, hs.last, hs.waiting,
      hs.serves, by simp [hlive]⟩
  unfold References.setCaps
  cases hcaps : s.caps with
  | none =>
      rw [hcaps] at hholds
      exact hset _ (hholds.hold [.caps copy])
  | some caps =>
      rw [hcaps] at hholds
      cases equal with
      | true => exact hs
      | false => exact hset _ ((Counted.Holds.drop hholds).hold [.caps copy])

theorem backed_setEnableLastSample {s : References} (hs : Backed s) (hlive : s.destroyed = false)
    (value : Bool) : Backed (s.setEnableLastSample value) := by
  cases value with
  | true =>
      refine ⟨hs.numbers, hs.bounded, hs.holds, hs.mappings, ?_, hs.waiting, hs.serves, ?_⟩
      · rintro ⟨⟩
      · exact hs.settled
  | false =>
      exact ⟨hs.numbers, hs.bounded, hs.holds.drop, hs.mappings, fun _ ↦ rfl, hs.waiting,
        hs.serves, by simp [References.setEnableLastSample, hlive]⟩

theorem backed_unmap {s : References} (hs : Backed s) {buffer : ℕ} (hmap : s.map = some buffer)
    (hused : s.isUsed = true) :
    Backed { s with map := none, mappings := s.mappings.release buffer } := by
  have hmappings := hs.mappings
  rw [hmap] at hmappings
  refine ⟨hs.numbers, hs.bounded, hs.holds, hmappings.release, hs.last, hs.waiting, ?_, ?_⟩
  · have hserves := hs.serves
    unfold References.isUsed at hused
    split at hused
    · next p k outcome hpc =>
        rw [hpc] at hserves ⊢
        obtain ⟨g, hsample, hnumber, -⟩ := hserves
        exact ⟨g, hsample, hnumber, .inl rfl⟩
    · next p hpc =>
        rw [hpc]
        exact .inl rfl
    · cases hused
  · intro hdestroyed
    obtain ⟨hrefs, hothers, -⟩ := hs.settled hdestroyed
    exact ⟨hrefs, hothers, rfl⟩

theorem backed_releaseSample {s : References} (hs : Backed s) {g : Sample}
    (hsample : s.sample = some g) (hmap : s.map = none) (hleaving : s.isLeaving = true) :
    Backed { s with sample := none, counted := s.counted.unref Sample.content g } := by
  have hrefs : s.refs.Perm (g :: (s.samples ++ [])) := by
    unfold References.refs
    rw [hsample, List.append_nil]
    exact List.perm_append_singleton g s.samples
  refine ⟨hs.numbers, ?_, (hs.holds.perm hrefs (.refl _)).unref, hs.mappings, hs.last, hs.waiting,
    ?_, ?_⟩
  · intro g' hg'
    exact hs.bounded g' (hrefs.mem_iff.mpr (List.mem_cons_of_mem _ hg'))
  · unfold References.isLeaving at hleaving
    split at hleaving
    · next p hpc =>
        rw [hpc]
        exact hmap
    · next p hpc =>
        rw [hpc]
        exact .inl hmap
    · cases hleaving
  · intro hdestroyed
    have hempty := (hs.settled hdestroyed).1
    exact absurd (hempty ▸ hrefs).length_eq (by simp)

theorem backed_destroy {s : References} (hs : Backed s) (hidle : s.delegate.puller = .idle)
    (hwaiting : s.delegate.waiting = false) : Backed s.destroy := by
  have hserves := hs.serves
  rw [hidle] at hserves
  obtain ⟨hsample, hmap⟩ := hserves
  have hnone := waitingBuffer_eq_none hs hwaiting
  have hholds : s.counted.Holds Sample.content (s.samples ++ [])
      (capsOf s.caps ++ (bufferOf s.lastBuffer ++ [])) := by
    have hall := hs.holds
    unfold References.refs References.others at hall
    rw [hsample, hnone] at hall
    apply hall.perm (.refl _)
    rw [List.append_nil]
    exact List.perm_append_comm
  obtain ⟨counted, heq, hcleared⟩ := clearBuffersUnlocked_spec (s := { s with
    delegate := s.delegate.clearBuffersUnlocked, caps := none
    counted := s.counted.drop (capsOf s.caps), destroyed := true }) hs.last hholds.drop
  have hrefs : [] ++ s.sample.toList = [] := by
    rw [hsample]
    rfl
  unfold References.destroy
  rw [heq]
  refine ⟨rfl, ?_, ?_, hs.mappings, fun _ ↦ rfl, hs.waiting, hs.serves, fun _ ↦ ⟨hrefs, ?_, hmap⟩⟩
  · intro g hg
    rw [References.refs, hrefs] at hg
    exact absurd hg List.not_mem_nil
  · unfold References.refs References.others
    rw [hsample, hnone]
    exact hcleared
  · unfold References.others
    rw [hnone]
    rfl

theorem backed_step {s t : References} {e : ReferenceEvent} (hs : Backed s)
    (hstep : references.step s e = some t) : Backed t := by
  cases e with
  | delegate event buffer =>
      simp only [references, References.step] at hstep
      split at hstep
      · cases hstep
      · next hlive =>
          split at hstep
          · next hpermits =>
              obtain ⟨delegate, hdelegate, rfl⟩ := Option.map_eq_some_iff.mp hstep
              exact backed_of_delegate hs (Bool.eq_false_iff.mpr hlive) hpermits hdelegate
          · cases hstep
  | caps equal copy =>
      simp only [references, References.step] at hstep
      split at hstep
      · cases hstep
      · next hlive =>
          cases hstep
          exact backed_setCaps hs (Bool.eq_false_iff.mpr hlive) equal copy
  | setEnableLastSample value =>
      simp only [references, References.step] at hstep
      split at hstep
      · cases hstep
      · next hlive =>
          cases hstep
          exact backed_setEnableLastSample hs (Bool.eq_false_iff.mpr hlive) value
  | unmap =>
      simp only [references, References.step] at hstep
      split at hstep
      · cases hstep
      · next buffer hmap =>
          split at hstep
          · next hused =>
              cases hstep
              exact backed_unmap hs hmap hused
          · cases hstep
  | releaseSample =>
      simp only [references, References.step] at hstep
      split at hstep
      · cases hstep
      · next g hsample =>
          split at hstep
          · next hleaving =>
              cases hstep
              exact backed_releaseSample hs hsample (Option.isNone_iff_eq_none.mp hleaving.1)
                hleaving.2
          · cases hstep
  | destroy =>
      simp only [references, References.step] at hstep
      split at hstep
      · cases hstep
      · next hready =>
          cases hstep
          simp only [not_or, not_not, Bool.not_eq_true] at hready
          exact backed_destroy hs hready.2.1 hready.2.2

/-! ## Runs -/

/-- No reference is given up that is not owned, and no buffer unmapped that is
not mapped; what is owned is what the pointers stand for, with one reference to
the contents of each sample alive; what the puller uses is alive, and mapped
while it is parsed and added; nothing is owned after the destructor. -/
structure Sound (s : References) : Prop where
  unowned : s.counted.references.unowned = [] ∧ s.counted.contents.unowned = [] ∧
    s.mappings.unowned = []
  samples : s.counted.references.owned.Perm s.refs
  contents : s.counted.contents.owned.Perm (s.refs.dedup.flatMap Sample.content ++ s.others)
  mappings : s.mappings.owned = s.map.toList
  alive : ∀ k, s.delegate.puller.sample = some k → ∃ g, s.sample = some g ∧ g.number = k ∧
    g ∈ s.counted.references.owned ∧ ∀ resource ∈ g.content, resource ∈ s.counted.contents.owned
  mapped : ∀ p k, s.delegate.puller = .parse p k ∨ s.delegate.puller = .add p k →
    ∃ g, s.sample = some g ∧ s.map = some g.buffer
  destroyed : s.destroyed = true → s.counted.references.owned = [] ∧
    s.counted.contents.owned = [] ∧ s.mappings.owned = []

theorem backed_start : Backed {} := by
  refine ⟨rfl, ?_, ⟨⟨.nil, rfl⟩, ⟨.nil, rfl⟩⟩, ⟨.nil, rfl⟩, fun _ ↦ rfl, rfl, ⟨rfl, rfl⟩, ?_⟩
  · exact fun g hg ↦ absurd hg List.not_mem_nil
  · rintro ⟨⟩

theorem Backed.sample_of_puller {s : References} (hs : Backed s) {k : ℕ}
    (hk : s.delegate.puller.sample = some k) : ∃ g, s.sample = some g ∧ g.number = k := by
  have hserves := hs.serves
  cases hpc : s.delegate.puller with
  | map p k' | parse p k' | add p k' | pop p k' outcome =>
      rw [hpc] at hserves hk
      cases hk
      obtain ⟨g, hsample, hnumber, -⟩ := hserves
      exact ⟨g, hsample, hnumber⟩
  | idle | loop | front | eos | done =>
      rw [hpc] at hk
      cases hk

theorem Backed.sound {s : References} (hs : Backed s) : Sound s := by
  have hmappings : s.mappings.owned = s.map.toList := by
    have hperm := hs.mappings.owned
    cases hmap : s.map with
    | none =>
        rw [hmap] at hperm
        exact List.perm_nil.mp hperm
    | some buffer =>
        rw [hmap] at hperm
        exact List.perm_singleton.mp hperm
  refine ⟨⟨hs.holds.references.unowned, hs.holds.contents.unowned, hs.mappings.unowned⟩,
    hs.holds.references.owned, hs.holds.contents.owned, hmappings, ?_, ?_, ?_⟩
  · intro k hk
    obtain ⟨g, hsample, hnumber⟩ := hs.sample_of_puller hk
    have hmem : g ∈ s.refs := by
      apply List.mem_append_right
      rw [hsample]
      exact List.mem_singleton_self g
    exact ⟨g, hsample, hnumber, hs.holds.alive hmem⟩
  · intro p k hpc
    have hserves := hs.serves
    obtain hpc | hpc := hpc
    all_goals
      rw [hpc] at hserves
      obtain ⟨g, hsample, -, hmap⟩ := hserves
      exact ⟨g, hsample, hmap⟩
  · intro hdestroyed
    obtain ⟨hrefs, hothers, hmap⟩ := hs.settled hdestroyed
    have hreferences := hs.holds.references.owned
    have hcontents := hs.holds.contents.owned
    rw [hrefs] at hreferences hcontents
    rw [hothers] at hcontents
    refine ⟨List.perm_nil.mp hreferences, List.perm_nil.mp hcontents, ?_⟩
    rw [hmappings, hmap]
    rfl

/-- Whatever the streaming thread, the puller, flushes and state changes do in
turn, the references are in order. -/
theorem always_sound (es : List ReferenceEvent) : references.Always Sound {} es := by
  intro pre s _ hrun
  have hbacked : Backed s :=
    references.invariant (fun _ _ _ hs hstep ↦ backed_step hs hstep) backed_start hrun
  exact hbacked.sound

/-- A flush frees the sample in the queue while it is mapped; the puller has the
last reference to it. -/
example : (references.run {} [.delegate .setSegment 0, .delegate (.handleBuffer true) 7,
      .delegate (.pullBuffer 1) 0, .delegate .isReadyToSendData 0, .delegate .getFrontSample 0,
      .delegate (.map true) 0, .delegate .startFlushing 0]).map
    (fun s ↦ (s.samples, s.counted.references.owned, s.counted.contents.owned, s.map)) =
      some ([], [⟨0, 7, none⟩], [.buffer 7], some 7) := by
  decide

/-- The delegate behind the pointers is the delegate of the other modules. -/
def ReferenceEvent.events : ReferenceEvent → List Event
  | .delegate event _ => [event]
  | .destroy => [.pausedToReady]
  | .caps _ _ | .setEnableLastSample _ | .unmap | .releaseSample => []

theorem delegate_clearBuffersUnlocked (s : References) :
    s.clearBuffersUnlocked.delegate = s.delegate := by
  unfold References.clearBuffersUnlocked References.setLastBuffer
  split <;> rfl

theorem delegate_destroy (s : References) :
    s.destroy.delegate = s.delegate.clearBuffersUnlocked := by
  unfold References.destroy
  rw [delegate_clearBuffersUnlocked]

theorem delegate_setCaps (s : References) (equal : Bool) (copy : ℕ) :
    (s.setCaps equal copy).delegate = s.delegate := by
  unfold References.setCaps
  split
  · rfl
  · split <;> rfl

theorem delegate_setEnableLastSample (s : References) (value : Bool) :
    (s.setEnableLastSample value).delegate = s.delegate := by
  cases value <;> rfl

theorem delegate_run {s : References} {es : List ReferenceEvent}
    (hrun : references.run {} es = some s) :
    machine.run {} (es.flatMap ReferenceEvent.events) = some s.delegate := by
  refine references.run_flatMap machine (f := References.delegate) ?_ hrun
  intro s e t hstep
  cases e with
  | delegate event buffer =>
      simp only [references, References.step] at hstep
      split at hstep
      · cases hstep
      · split at hstep
        · obtain ⟨delegate, hdelegate, rfl⟩ := Option.map_eq_some_iff.mp hstep
          exact machine.run_cons_eq_some_iff.mpr ⟨delegate, hdelegate, rfl⟩
        · cases hstep
  | caps equal copy =>
      simp only [references, References.step] at hstep
      split at hstep <;> cases hstep
      exact congrArg some (delegate_setCaps s equal copy).symm
  | setEnableLastSample value =>
      simp only [references, References.step] at hstep
      split at hstep <;> cases hstep
      exact congrArg some (delegate_setEnableLastSample s value).symm
  | unmap =>
      simp only [references, References.step] at hstep
      split at hstep
      · cases hstep
      · split at hstep <;> cases hstep
        rfl
  | releaseSample =>
      simp only [references, References.step] at hstep
      split at hstep
      · cases hstep
      · split at hstep <;> cases hstep
        rfl
  | destroy =>
      simp only [references, References.step] at hstep
      split at hstep <;> cases hstep
      exact congrArg some (delegate_destroy s).symm

end RialtoGStreamer.PullMode
