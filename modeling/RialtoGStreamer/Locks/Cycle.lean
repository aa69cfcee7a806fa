import RialtoGStreamer.Locks.Model

/-!
# No lock cycle with the worker

Every handler leaves `m_sinkMutex` before it calls the client, with one exception:
`set-pts-offset` calls `setSubtitleOffset` under the mutex if a source is attached.
So a run in which these events find no attached source never comes to a lock cycle,
and neither does a run without subtitle delegates.
-/

namespace RialtoGStreamer.Locks

open Library Library.EventLoop
open MediaPlayerClient (PlaybackState)
open Properties (PullModeDelegate)
open GStreamerMSEMediaPlayerClient FlushAndDataSynchronizer Locks.MediaPlayerManager

/-- The mutexes `m_sinkMutex` are watched. Whether a test that is made under the one of
a delegate may find that its source is attached is left open. -/
def sinkWatch (mayFindSource : Prop) : Watch Mutex Test where
  watched
    | .sink _ => true
    | _ => false
  expected
    | some (.sink i), .sourceAttached j, true => i = j → mayFindSource
    | _, _, _ => True

section

variable {p : Prop} {h : Option Mutex} {i : ℕ} {c : Code}

@[simp] theorem sinkWatch_watched_iff {m : Mutex} :
    (sinkWatch p).watched m = true ↔ ∃ i, m = .sink i := by
  cases m <;> simp [sinkWatch]

@[simp] theorem sinkWatch_expected_client {b : Bool} :
    (sinkWatch p).expected h (.client i) b ↔ True := by
  unfold sinkWatch
  dsimp only
  split
  next heq => cases heq
  · rfl

@[simp] theorem sinkWatch_expected_none {t : Test} {b : Bool} :
    (sinkWatch p).expected none t b ↔ True := Iff.rfl

@[simp] theorem sinkWatch_expected_sourceAttached {j : ℕ} {b : Bool} :
    (sinkWatch p).expected (some (.sink i)) (.sourceAttached j) b ↔
      (b = true → i = j → p) := by
  cases b <;> simp [sinkWatch]

/-! ## The pieces of the handlers -/

@[simp] theorem safe_critical_iff {m : Mutex} :
    (sinkWatch p).Safe h (critical m) ↔ ((∃ i, m = .sink i) → h = none) := by
  simp [critical, Watch.Safe]

@[simp] theorem safe_callInEventLoop_iff {op : Operation} :
    (sinkWatch p).Safe h (callInEventLoop op) ↔ h = none := Iff.rfl

@[simp] theorem safe_postMessage {message : Message} :
    (sinkWatch p).Safe h (postMessage message) := trivial

@[simp] theorem safe_ask_iff {op : Operation} : (sinkWatch p).Safe h (ask op) ↔ h = none := by
  unfold ask
  split
  · rw [Watch.safe_maybe_iff]
    rfl
  · rfl

@[simp] theorem safe_withClient_iff :
    (sinkWatch p).Safe h (withClient i c) ↔ (sinkWatch p).Safe h c := by
  simp [withClient, Watch.Safe]

@[simp] theorem safe_withSource_iff :
    (sinkWatch p).Safe none (withSource i c) ↔ (sinkWatch p).Safe none c := by
  simp [withSource, Watch.Safe]

@[simp] theorem safe_criticalThen_iff {m : Mutex} :
    (sinkWatch p).Safe none (criticalThen i m c) ↔ (sinkWatch p).Safe none c := by
  simp [criticalThen, Watch.Safe]

@[simp] theorem safe_stopStreaming {attached : List ℕ} :
    (sinkWatch p).Safe none (stopStreaming attached) := by
  simp [stopStreaming, Watch.Safe]

@[simp] theorem safe_waitIfRequired {wakeups : ℕ} :
    (sinkWatch p).Safe none (waitIfRequired wakeups) := by
  simp [waitIfRequired, Watch.Safe]

@[simp] theorem safe_createMediaPlayerClient :
    (sinkWatch p).Safe none (createMediaPlayerClient i) := by
  simp [createMediaPlayerClient, Watch.Safe]

@[simp] theorem safe_releaseMediaPlayerClient {attached : List ℕ} :
    (sinkWatch p).Safe none (releaseMediaPlayerClient i attached) := by
  simp [releaseMediaPlayerClient, Watch.Safe]

@[simp] theorem safe_attachMediaPlayerClient_iff {attached : List ℕ} :
    (sinkWatch p).Safe none (attachMediaPlayerClient i attached c) ↔
      (sinkWatch p).Safe none c := by
  simp [attachMediaPlayerClient, Watch.Safe]

@[simp] theorem safe_hasControl_iff :
    (sinkWatch p).Safe none (hasControl i c) ↔ (sinkWatch p).Safe none c := by
  simp [hasControl, Watch.Safe]

end

/-! ## The base class -/

namespace PullModePlaybackDelegate

variable {p : Prop} {i : ℕ}

@[simp] theorem safe_attachToMediaClientAndSetStreamsNumber_iff {attached : List ℕ} {c : Code} :
    (sinkWatch p).Safe none (attachToMediaClientAndSetStreamsNumber i attached c) ↔
      (sinkWatch p).Safe none c := by
  simp [attachToMediaClientAndSetStreamsNumber, setStreamsNumber, Watch.Safe]

/-- `removeSource` is called before the mutex is taken. -/
@[simp] theorem safe_changeState {attached : List ℕ} (transition : StateChange) :
    (sinkWatch p).Safe none (changeState i attached transition) := by
  cases transition <;> simp [changeState, Watch.Safe]

@[simp] theorem safe_setProperty (type : Property) :
    (sinkWatch p).Safe none (setProperty i type) := by
  cases type <;> simp [setProperty, Watch.Safe]

@[simp] theorem safe_getProperty (type : Property) :
    (sinkWatch p).Safe none (getProperty i type) := by
  cases type <;> simp [getProperty, getLastSample, Watch.Safe]

theorem safe_handleQuery (query : Query) : (sinkWatch p).Safe none (handleQuery i query) := by
  cases query <;> simp [handleQuery, getPosition, Watch.Safe]

/-- `flush` is called between the two sections. -/
theorem safe_stopFlushing : (sinkWatch p).Safe none (stopFlushing i) := by
  simp [stopFlushing, flushServer, GStreamerMSEMediaPlayerClient.flush, Watch.Safe]

@[simp] theorem safe_handleEvent (event : PadEvent) :
    (sinkWatch p).Safe none (handleEvent i event) := by
  cases event with
  | flushStop => exact safe_stopFlushing
  | segment => simp [handleEvent, copySegment, setSegment, Watch.Safe]
  | eos => simp [handleEvent, notifyDataReceived, Watch.Safe]
  | customInstantRateChange => simp [handleEvent, changePlaybackRate]
  | flushStart wakeups => simp [handleEvent, startFlushing, Watch.Safe]
  | caps | streamCollection => simp [handleEvent, Watch.Safe]
  | sinkMessage | switchSource | setPtsOffset | instantRateChange | other => trivial

theorem safe_handleBuffer : (sinkWatch p).Safe none (handleBuffer i) := by
  simp [handleBuffer, notifyDataReceived, Watch.Safe]

@[simp] theorem safe_attachSource_iff {createMediaSource : Code} {settings : List Code} :
    (sinkWatch p).Safe none (attachSource i createMediaSource settings) ↔
      (sinkWatch p).Safe none createMediaSource ∧
        ∀ c ∈ settings, (sinkWatch p).Safe none c := by
  simp [attachSource, Watch.Safe]

end PullModePlaybackDelegate

/-! ## The three delegates -/

section

variable {p : Prop} {i : ℕ}

theorem PullModeAudioPlaybackDelegate.safe_changeState {attached : List ℕ}
    (transition : StateChange) :
    (sinkWatch p).Safe none (PullModeAudioPlaybackDelegate.changeState i attached transition) := by
  cases transition <;> simp [PullModeAudioPlaybackDelegate.changeState, Watch.Safe]

theorem PullModeAudioPlaybackDelegate.safe_handleEvent (event : PadEvent) :
    (sinkWatch p).Safe none (PullModeAudioPlaybackDelegate.handleEvent i event) := by
  cases event <;> simp [PullModeAudioPlaybackDelegate.handleEvent, Watch.Safe]

theorem PullModeAudioPlaybackDelegate.safe_getProperty (type : Property) :
    (sinkWatch p).Safe none (PullModeAudioPlaybackDelegate.getProperty i type) := by
  cases type <;> simp [PullModeAudioPlaybackDelegate.getProperty, getCachedVolume, Watch.Safe]

theorem PullModeAudioPlaybackDelegate.safe_setProperty (type : Property) :
    (sinkWatch p).Safe none (PullModeAudioPlaybackDelegate.setProperty i type) := by
  cases type <;> simp [PullModeAudioPlaybackDelegate.setProperty, Watch.Safe]

theorem PullModeVideoPlaybackDelegate.safe_changeState {attached : List ℕ}
    (transition : StateChange) :
    (sinkWatch p).Safe none (PullModeVideoPlaybackDelegate.changeState i attached transition) := by
  cases transition <;> simp [PullModeVideoPlaybackDelegate.changeState, Watch.Safe]

theorem PullModeVideoPlaybackDelegate.safe_handleEvent (event : PadEvent) :
    (sinkWatch p).Safe none (PullModeVideoPlaybackDelegate.handleEvent i event) := by
  cases event <;> simp [PullModeVideoPlaybackDelegate.handleEvent, Watch.Safe]

theorem PullModeVideoPlaybackDelegate.safe_getProperty (type : Property) :
    (sinkWatch p).Safe none (PullModeVideoPlaybackDelegate.getProperty i type) := by
  cases type <;> simp [PullModeVideoPlaybackDelegate.getProperty, getPosition, Watch.Safe]

theorem PullModeVideoPlaybackDelegate.safe_setProperty (type : Property) :
    (sinkWatch p).Safe none (PullModeVideoPlaybackDelegate.setProperty i type) := by
  cases type <;> simp [PullModeVideoPlaybackDelegate.setProperty, Watch.Safe]

theorem PullModeSubtitlePlaybackDelegate.safe_changeState {attached : List ℕ}
    (transition : StateChange) :
    (sinkWatch p).Safe none
      (PullModeSubtitlePlaybackDelegate.changeState i attached transition) := by
  cases transition <;> simp [PullModeSubtitlePlaybackDelegate.changeState]

/-- The one handler that calls the client under the mutex: it is safe as long as it is
not expected to find an attached source there. -/
theorem PullModeSubtitlePlaybackDelegate.safe_setPtsOffset_iff :
    (sinkWatch p).Safe none (setPtsOffset i) ↔ ¬p := by
  simp [setPtsOffset, withSource, Watch.Safe]

theorem PullModeSubtitlePlaybackDelegate.safe_handleEvent (hp : ¬p) (event : PadEvent) :
    (sinkWatch p).Safe none (PullModeSubtitlePlaybackDelegate.handleEvent i event) := by
  cases event with
  | setPtsOffset => exact safe_setPtsOffset_iff.mpr hp
  | _ => simp [PullModeSubtitlePlaybackDelegate.handleEvent, Watch.Safe]

theorem PullModeSubtitlePlaybackDelegate.safe_getProperty (type : Property) :
    (sinkWatch p).Safe none (PullModeSubtitlePlaybackDelegate.getProperty i type) := by
  cases type <;> simp [PullModeSubtitlePlaybackDelegate.getProperty, Watch.Safe]

theorem PullModeSubtitlePlaybackDelegate.safe_setProperty (type : Property) :
    (sinkWatch p).Safe none (PullModeSubtitlePlaybackDelegate.setProperty i type) := by
  cases type <;> simp [PullModeSubtitlePlaybackDelegate.setProperty, Watch.Safe]

theorem safe_changeState {attached : List ℕ} {transition : StateChange}
    (delegate : PullModeDelegate) :
    (sinkWatch p).Safe none (changeState i attached transition delegate) := by
  cases delegate with
  | audio => exact PullModeAudioPlaybackDelegate.safe_changeState transition
  | video => exact PullModeVideoPlaybackDelegate.safe_changeState transition
  | subtitle => exact PullModeSubtitlePlaybackDelegate.safe_changeState transition

theorem safe_handleEvent {event : PadEvent} {delegate : PullModeDelegate}
    (hp : delegate = .subtitle → ¬p) :
    (sinkWatch p).Safe none (handleEvent i event delegate) := by
  cases delegate with
  | audio => exact PullModeAudioPlaybackDelegate.safe_handleEvent event
  | video => exact PullModeVideoPlaybackDelegate.safe_handleEvent event
  | subtitle => exact PullModeSubtitlePlaybackDelegate.safe_handleEvent (hp rfl) event

theorem safe_getProperty {type : Property} (delegate : PullModeDelegate) :
    (sinkWatch p).Safe none (getProperty i type delegate) := by
  cases delegate with
  | audio => exact PullModeAudioPlaybackDelegate.safe_getProperty type
  | video => exact PullModeVideoPlaybackDelegate.safe_getProperty type
  | subtitle => exact PullModeSubtitlePlaybackDelegate.safe_getProperty type

theorem safe_setProperty {type : Property} (delegate : PullModeDelegate) :
    (sinkWatch p).Safe none (setProperty i type delegate) := by
  cases delegate with
  | audio => exact PullModeAudioPlaybackDelegate.safe_setProperty type
  | video => exact PullModeVideoPlaybackDelegate.safe_setProperty type
  | subtitle => exact PullModeSubtitlePlaybackDelegate.safe_setProperty type

theorem safe_handleSendEvent {event : SentEvent} {delegate : PullModeDelegate}
    (hp : delegate = .subtitle → ¬p) :
    (sinkWatch p).Safe none (handleSendEvent i delegate event) := by
  cases event with
  | instantRateChangeSeek => exact safe_handleEvent hp
  | flushingSeek | instantRateSyncTime => simp [handleSendEvent]
  | other => trivial

/-! ## The threads of the queues -/

theorem safe_handleStateChanged {delegate : PullModeDelegate} {later : List ℕ}
    (state : PlaybackState) :
    (sinkWatch p).Safe none (handleStateChanged i delegate later state) := by
  cases state with
  | paused => exact Watch.safe_maybe_iff.mpr (safe_changeState delegate)
  | unknown | idle | playing | seekDone | stopped | endOfStream | failure => trivial

theorem safe_handlePlaybackStateChange {kind : ℕ → PullModeDelegate} {attached later : List ℕ}
    (state : PlaybackState) :
    (sinkWatch p).Safe none (handlePlaybackStateChange kind attached later state) := by
  cases state <;>
    simp [handlePlaybackStateChange, safe_handleStateChanged, PullModePlaybackDelegate.handleEos,
      Watch.Safe]

theorem safe_run {kind : ℕ → PullModeDelegate} (op : Operation) :
    (sinkWatch p).Safe none (op.run kind) := by
  cases op with
  | handlePlaybackStateChange state attached later => exact safe_handlePlaybackStateChange state
  | _ =>
      simp [Operation.run, PullModePlaybackDelegate.handleFlushCompleted, Watch.Safe]

theorem safe_handle (message : Message) : (sinkWatch p).Safe none message.handle := by
  cases message <;> simp [Message.handle, Watch.Safe]

theorem safe_pullFrames (frameCount : ℕ) : (sinkWatch p).Safe none (pullFrames i frameCount) := by
  induction frameCount with
  | zero => trivial
  | succ frameCount ih =>
      simp [pullFrames, PullModePlaybackDelegate.isReadyToSendData,
        PullModePlaybackDelegate.getFrontSample, PullModePlaybackDelegate.isEos,
        PullModePlaybackDelegate.popSample, Watch.Safe, ih]

theorem safe_body {kind : ℕ → PullModeDelegate} (job : Job) :
    (sinkWatch p).Safe none (job.body kind) := by
  cases job with
  | operation op => exact safe_run op
  | message message => exact safe_handle message
  | pullBuffer i frameCount => simp [Job.body, pullBuffer, safe_pullFrames]

theorem safe_code {kind : ℕ → PullModeDelegate} (hp : ∀ i, kind i = .subtitle → ¬p)
    (e : Entry) : (sinkWatch p).Safe none (e.code kind) := by
  cases e with
  | changeState i transition attached => exact safe_changeState (kind i)
  | handleEvent i event => exact safe_handleEvent (hp i)
  | handleSendEvent i event => exact safe_handleSendEvent (hp i)
  | handleBuffer i => exact PullModePlaybackDelegate.safe_handleBuffer
  | handleQuery i query => exact PullModePlaybackDelegate.safe_handleQuery query
  | getProperty i type => exact safe_getProperty (kind i)
  | setProperty i type => exact safe_setProperty (kind i)
  | notify message => trivial
  | notifyPlaybackInfo =>
      simp [Entry.code, GStreamerMSEMediaPlayerClient.notifyPlaybackInfo, Watch.Safe]

end

/-! ## Runs -/

section

variable {p : Prop} {kind : ℕ → PullModeDelegate} {τ : Type} [DecidableEq τ]

/-- If it is the source of a delegate that thread `u` tests for, with `m_sinkMutex` of
this delegate, then the source is not attached. -/
def NoSource (s : State (program kind) τ) (u : Thread Loop τ) : Test → Prop
  | .client _ => True
  | .sourceAttached i => s.owner (.sink i) = some u → s.world.sourceAttached i = false

instance decidableNoSource (s : State (program kind) τ) (u : Thread Loop τ) :
    DecidablePred (NoSource s u)
  | .client _ => isTrue trivial
  | .sourceAttached i =>
      inferInstanceAs (Decidable (s.owner (.sink i) = some u → s.world.sourceAttached i = false))

/-- No thread finds an attached source while it has `m_sinkMutex`. -/
def FindsNoSource (s : State (program kind) τ) : Event (program kind) τ → Prop
  | .advance u _ => ∀ c ∈ (s.pc u).tests, NoSource s u c
  | _ => True

instance decidableFindsNoSource (s : State (program kind) τ) : DecidablePred (FindsNoSource s)
  | .advance u _ => inferInstanceAs (Decidable (∀ c ∈ (s.pc u).tests, NoSource s u c))
  | .enter _ _ | .take _ => isTrue trivial

omit [DecidableEq τ] in
theorem FindsNoSource.follows {s : State (program kind) τ} {e : Event (program kind) τ}
    (hfinds : FindsNoSource s e) : (sinkWatch False).Follows s e := by
  cases e with
  | enter t e | take l => trivial
  | advance u choice =>
      intro c h htests hholds
      cases h with
      | none => trivial
      | some m =>
          obtain ⟨hwatched, howner⟩ := (hholds m).mp rfl
          obtain ⟨i, rfl⟩ := sinkWatch_watched_iff.mp hwatched
          cases c with
          | client j => exact sinkWatch_expected_client.mpr trivial
          | sourceAttached j =>
              apply sinkWatch_expected_sourceAttached.mpr
              intro hattached hij
              subst hij
              have hnot : s.world.sourceAttached i = false := hfinds _ htests howner
              exact absurd (hattached.symm.trans hnot) (by simp)

omit [DecidableEq τ] in
theorem follows_of_mayFindSource (s : State (program kind) τ) (e : Event (program kind) τ) :
    (sinkWatch True).Follows s e := by
  cases e with
  | enter t e | take l => trivial
  | advance u choice =>
      intro c h _ _
      unfold sinkWatch
      dsimp only
      split <;> simp

omit [DecidableEq τ] in
theorem not_lockCycle_of_free {s : State (program kind) τ}
    (hfree : ∀ u l m, (s.pc u).calls = some l → (sinkWatch p).watched m = true →
      s.owner m ≠ some u) : ¬LockCycle s := by
  rintro ⟨i, u, howner, hcalls, -⟩
  exact hfree u .backend (.sink i) hcalls (sinkWatch_watched_iff.mpr ⟨i, rfl⟩) howner

theorem always_not_lockCycle_of_follows (hp : ∀ i, kind i = .subtitle → ¬p) {world : World}
    {es : List (Event (program kind) τ)}
    (hfollows : (machine (program kind) τ).Meets (sinkWatch p).Follows { world } es) :
    (machine (program kind) τ).Always (fun s ↦ ¬LockCycle s) { world } es := by
  have hfree := Watch.always_free_of_follows safe_body (safe_code hp) hfollows
  exact hfree.mono _ fun s ↦ not_lockCycle_of_free

/-- The threads never come to a lock cycle if no `set-pts-offset` finds an attached
source. -/
theorem always_not_lockCycle {world : World} {es : List (Event (program kind) τ)}
    (hfinds : (machine (program kind) τ).Meets FindsNoSource { world } es) :
    (machine (program kind) τ).Always (fun s ↦ ¬LockCycle s) { world } es :=
  always_not_lockCycle_of_follows (fun _ _ ↦ not_false)
    (hfinds.mono _ fun _ _ ↦ FindsNoSource.follows)

/-- A subtitle sink gets a client in READY->PAUSED, and an offset before its source. -/
def offsetBeforeCaps : List (Event (program fun _ ↦ .subtitle) ℕ) :=
  let go (choices : List Bool) := choices.map (Event.advance (.client 0))
  let yes (n : ℕ) := List.replicate n true
  let work (n : ℕ) :=
    Event.take Loop.backend :: List.replicate n (Event.advance (.loop Loop.backend) true)
  List.flatten [
    [.enter 0 (.changeState 0 .readyToPaused [])], go (yes 7 ++ [false] ++ yes 2), work 2,
    go (yes 11 ++ [false] ++ yes 4), work 2, go (yes 2), work 2, go (yes 2),
    [.enter 0 (.handleEvent 0 .setPtsOffset)], go (yes 7),
    [.enter 0 (.handleEvent 0 .caps)], go (yes 11), work 5]

theorem always_not_lockCycle_offsetBeforeCaps :
    ((machine _ ℕ).run { world := ({} : World) } offsetBeforeCaps).isSome = true ∧
      (machine _ ℕ).Always (fun s ↦ ¬LockCycle s) { world := ({} : World) } offsetBeforeCaps :=
  ⟨by decide +kernel, always_not_lockCycle (by decide +kernel)⟩

/-- The source is attached and flushed, and an offset arrives while the worker is told
that the flush is completed. -/
def offsetDuringFlush : List (Event (program fun _ ↦ .subtitle) ℕ) :=
  let go (t : ℕ) (choices : List Bool) := choices.map (Event.advance (.client t))
  let yes (n : ℕ) := List.replicate n true
  let work (n : ℕ) :=
    Event.take Loop.backend :: List.replicate n (Event.advance (.loop Loop.backend) true)
  List.flatten [
    [.enter 0 (.changeState 0 .readyToPaused [])], go 0 (yes 7 ++ [false] ++ yes 2), work 2,
    go 0 (yes 11 ++ [false] ++ yes 4), work 2, go 0 (yes 2), work 2, go 0 (yes 2),
    [.enter 0 (.handleEvent 0 .caps)], go 0 (yes 11), work 5,
    go 0 (yes 4 ++ [false] ++ yes 4 ++ [false, true, false] ++ yes 5), work 2, go 0 (yes 5),
    [.enter 0 (.handleEvent 0 .flushStop)], go 0 (yes 11), work 2, go 0 (yes 4),
    [.enter 1 (.notify (.sourceFlushed 0))], go 1 (yes 2),
    [.enter 0 (.handleEvent 0 .setPtsOffset)], go 0 (yes 5), work 3]

theorem lockCycle_reachable : ¬∀ (kind : ℕ → PullModeDelegate)
    (es : List (Event (program kind) ℕ)) (s : State (program kind) ℕ),
    (machine (program kind) ℕ).run { world := ({} : World) } es = some s → ¬LockCycle s := by
  intro hnever
  have hend : ((machine _ ℕ).run { world := ({} : World) } offsetDuringFlush).map
      (fun s ↦ (s.owner (Mutex.sink 0), (s.pc (.client 0)).calls,
        (s.pc (.loop Loop.backend)).waitsFor)) =
      some (some (.client 0), some Loop.backend, some (Mutex.sink 0)) := by decide +kernel
  obtain ⟨s, hrun, heq⟩ := Option.map_eq_some_iff.mp hend
  obtain ⟨howner, hrest⟩ := Prod.mk.inj heq
  obtain ⟨hcalls, hwaits⟩ := Prod.mk.inj hrest
  exact hnever _ offsetDuringFlush s hrun ⟨0, .client 0, howner, hcalls, .inl hwaits⟩

/-- Without subtitle delegates they never do. -/
theorem always_not_lockCycle_of_no_subtitle (hkind : ∀ i, kind i ≠ .subtitle) {world : World}
    (es : List (Event (program kind) τ)) :
    (machine (program kind) τ).Always (fun s ↦ ¬LockCycle s) { world } es := by
  have htrivial : (machine (program kind) τ).Meets (fun _ _ ↦ True) { world } es :=
    (machine (program kind) τ).meets_of_forall_mem (fun _ _ ↦ trivial) _
  apply always_not_lockCycle_of_follows (p := True) (fun i hi ↦ absurd hi (hkind i))
  exact htrivial.mono _ fun s e _ ↦ follows_of_mayFindSource s e

end

end RialtoGStreamer.Locks
