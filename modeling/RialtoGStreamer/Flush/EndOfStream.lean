import RialtoGStreamer.Flush.Bookkeeping
import RialtoGStreamer.Flush.Sections
import RialtoGStreamer.PullMode.Moves

/-!
# No end of stream during a flush

`handleEos` is silenced by two flags: the one of the sink from `FLUSH_START` to
the end of `FLUSH_STOP`, the one of the server from `FLUSH_STOP` to the
confirmation. The second is set before the first is cleared, and is cleared by
the confirmation of the flush that set it.
-/

namespace RialtoGStreamer.Flush

open Library MediaPlayerClient

/-- A `FLUSH_START` follows the completion of the previous flush, a `FLUSH_STOP`
its `FLUSH_START`, and the sink does not change its state. The backend may also
refuse a flush, which is then never completed. -/
def World.isOrderly (w : World) : Section → Bool
  | .startFlushing => w.sink = .idle && !w.ongoing
  | .flushServer => w.sink = .started
  | .delegate .readyToPaused | .delegate .pausedToReady => false
  | _ => true

/-- The sections in an environment that flushes one time after the other. -/
def orderlySections : Machine World Section :=
  sections.restrict fun w e ↦ w.isOrderly e = true

/-- During a flush one of the flags holds, and no EOS was posted. -/
structure Silenced (w : World) : Prop where
  flags : w.ongoing = true →
    w.delegate.isSinkFlushOngoing = true ∨ w.delegate.isServerFlushOngoing = true
  messages : (.eos, true) ∉ w.messages

/-- No flush of the source is going on. -/
structure World.Calm (w : World) : Prop where
  sink : w.sink = .idle
  worker : w.worker = .idle
  ongoing : w.ongoing = false
  isFlushing : w.isFlushing w.sourceId = false
  messages : w.messages = []

namespace SinkSection

/-- Between `FLUSH_START` and the acceptance of the flush. -/
def unaccepted : SinkSection → Bool
  | .started | .flushedServer | .notified => true
  | .idle | .flushed => false

end SinkSection

/-- Which flag holds when, and that a confirmation finds its flush accepted. -/
structure Shielded (w : World) : Prop where
  sinkFlag : w.sink ≠ .idle → w.delegate.isSinkFlushOngoing = true
  serverFlag : w.ongoing = true → w.sink ≠ .started → w.delegate.isServerFlushOngoing = true
  unaccepted : w.sink.unaccepted = true → w.ongoing = true
  accepted : w.isFlushing w.sourceId = true → w.ongoing = true ∧ w.sink.unaccepted = false
  confirming : w.worker = .confirming w.sourceId →
    w.ongoing = true ∧ w.sink.unaccepted = false ∧ w.isFlushing w.sourceId = false
  messages : (.eos, true) ∉ w.messages

theorem Shielded.silenced {w : World} (h : Shielded w) : Silenced w := by
  refine ⟨fun hongoing ↦ ?_, h.messages⟩
  by_cases hidle : w.sink = .idle
  · exact .inr (h.serverFlag hongoing (by simp [hidle]))
  · exact .inl (h.sinkFlag hidle)

theorem shielded_of_calm {w : World} (h : w.Calm) : Shielded w := by
  refine ⟨?_, ?_, ?_, ?_, ?_, ?_⟩
  · exact fun hsink ↦ absurd h.sink hsink
  · exact fun hongoing ↦ absurd h.ongoing (by simp [hongoing])
  · rw [h.sink]
    rintro ⟨⟩
  · exact fun hflushing ↦ absurd h.isFlushing (by simp [hflushing])
  · rw [h.worker]
    rintro ⟨⟩
  · rw [h.messages]
    simp

/-! ## The sections -/

theorem flags_of_pull {s t : PullMode.State} {e : PullMode.Event} (h : PullMode.PullMove s e t) :
    t.isSinkFlushOngoing = s.isSinkFlushOngoing ∧
      t.isServerFlushOngoing = s.isServerFlushOngoing := by
  cases h with
  | pop =>
      unfold PullMode.State.popSample
      split <;> exact ⟨rfl, rfl⟩
  | _ => exact ⟨rfl, rfl⟩

theorem flags_queueBuffer (s : PullMode.State) (waiting created : Bool) :
    ({ s with waiting := waiting }.queueBuffer created).2.isSinkFlushOngoing =
        s.isSinkFlushOngoing ∧
      ({ s with waiting := waiting }.queueBuffer created).2.isServerFlushOngoing =
        s.isServerFlushOngoing := by
  unfold PullMode.State.queueBuffer
  split
  · exact ⟨rfl, rfl⟩
  · split <;> exact ⟨rfl, rfl⟩

/-- The flags that silence `handleEos` are touched by the sections of a flush and
by changes of the state only. -/
theorem flags_of_step {s t : PullMode.State} {e : PullMode.Event} (hflush : isFlushEvent e = false)
    (hready : e ≠ .readyToPaused) (hpaused : e ≠ .pausedToReady) (h : s.step e = some t) :
    t.isSinkFlushOngoing = s.isSinkFlushOngoing ∧
      t.isServerFlushOngoing = s.isServerFlushOngoing := by
  cases PullMode.step_move h with
  | startFlushing | flushServer | stopFlushing | handleFlushCompleted => cases hflush
  | readyToPaused => exact absurd rfl hready
  | pausedToReady => exact absurd rfl hpaused
  | queue _ waiting created => exact flags_queueBuffer s waiting created
  | wait | setEos | setSegment => exact ⟨rfl, rfl⟩
  | pull hmove => exact flags_of_pull hmove

theorem isFlushing_handleSourceFlushed (w : World) (id j : SourceId) :
    ((w.client.handleSourceFlushed id).attachedSources.lookup j).any (·.isFlushing) =
      if j = id then false else w.isFlushing j := by
  rcases eq_or_ne j id with rfl | hne
  · cases hsource : w.client.attachedSources.lookup j <;>
      simp [Client.handleSourceFlushed, hsource]
  · simp [Client.handleSourceFlushed, World.isFlushing, hne]

/-- A step inside which neither the flush nor its flags move. -/
theorem Shielded.congr {w w' : World} (h : Shielded w) (hsourceId : w'.sourceId = w.sourceId)
    (hsinkFlag : w'.delegate.isSinkFlushOngoing = w.delegate.isSinkFlushOngoing)
    (hserverFlag : w'.delegate.isServerFlushOngoing = w.delegate.isServerFlushOngoing)
    (hsink : w'.sink = w.sink) (hongoing : w'.ongoing = w.ongoing)
    (hflushing : w'.isFlushing w.sourceId = w.isFlushing w.sourceId)
    (hworker : w'.worker = .confirming w.sourceId → w.worker = .confirming w.sourceId)
    (hmessages : w'.messages = w.messages) : Shielded w' := by
  refine ⟨?_, ?_, ?_, ?_, ?_, ?_⟩
  · rw [hsink, hsinkFlag]
    exact h.sinkFlag
  · rw [hongoing, hsink, hserverFlag]
    exact h.serverFlag
  · rw [hongoing, hsink]
    exact h.unaccepted
  · rw [hsourceId, hflushing, hongoing, hsink]
    exact h.accepted
  · rw [hsourceId, hflushing, hongoing, hsink]
    exact fun hw ↦ h.confirming (hworker hw)
  · rw [hmessages]
    exact h.messages

/-- Between `FLUSH_START` and the acceptance there is nothing to confirm. -/
theorem Shielded.unconfirmed {w : World} (h : Shielded w)
    (hsink : w.ongoing = false ∨ w.sink.unaccepted = true) :
    w.isFlushing w.sourceId = false ∧ w.worker ≠ .confirming w.sourceId := by
  constructor
  · by_contra hset
    obtain ⟨hongoing, haccepted⟩ := h.accepted (by simpa using hset)
    rcases hsink with hsink | hsink
    · simp [hongoing] at hsink
    · simp [haccepted] at hsink
  · intro hworker
    obtain ⟨hongoing, haccepted, -⟩ := h.confirming hworker
    rcases hsink with hsink | hsink
    · simp [hongoing] at hsink
    · simp [haccepted] at hsink

theorem sinkFlag_startFlushing (s : PullMode.State) :
    s.startFlushing.isSinkFlushOngoing = true := by
  unfold PullMode.State.startFlushing
  split
  · next hset => exact hset
  · rfl

theorem shielded_startFlushing {w : World} (h : Shielded w) (hongoing : w.ongoing = false) :
    Shielded { w with
      delegate := w.delegate.startFlushing, sink := .started, ongoing := true } := by
  obtain ⟨hflushing, hworker⟩ := h.unconfirmed (.inl hongoing)
  exact ⟨fun _ ↦ sinkFlag_startFlushing w.delegate, fun _ hstarted ↦ absurd rfl hstarted,
    fun _ ↦ rfl, fun hset ↦ absurd (hflushing.symm.trans hset) (by simp),
    fun hw ↦ absurd hw hworker, h.messages⟩

theorem shielded_flushServer {w : World} (h : Shielded w) (hsink : w.sink = .started) :
    Shielded { w with delegate := w.delegate.flushServer, sink := .flushedServer } := by
  have hunaccepted : w.sink.unaccepted = true := by
    rw [hsink]
    rfl
  obtain ⟨hflushing, hworker⟩ := h.unconfirmed (.inr hunaccepted)
  exact ⟨fun _ ↦ h.sinkFlag (by simp [hsink]), fun _ _ ↦ rfl,
    fun _ ↦ h.unaccepted hunaccepted, fun hset ↦ absurd (hflushing.symm.trans hset) (by simp),
    fun hw ↦ absurd hw hworker, h.messages⟩

theorem shielded_notifyFlushStarted {w : World} (h : Shielded w)
    (hsink : w.sink = .flushedServer) (synchronizer : Synchronizer) :
    Shielded { w with synchronizer := synchronizer, sink := .notified } := by
  have hunaccepted : w.sink.unaccepted = true := by
    rw [hsink]
    rfl
  obtain ⟨hflushing, hworker⟩ := h.unconfirmed (.inr hunaccepted)
  exact ⟨fun _ ↦ h.sinkFlag (by simp [hsink]),
    fun hongoing _ ↦ h.serverFlag hongoing (by simp [hsink]),
    fun _ ↦ h.unaccepted hunaccepted, fun hset ↦ absurd (hflushing.symm.trans hset) (by simp),
    fun hw ↦ absurd hw hworker, h.messages⟩

theorem shielded_flush {w : World} (h : Shielded w) (hsink : w.sink = .notified)
    (hworker : w.worker = .idle) (client : Client) :
    Shielded { w with client := client, sink := .flushed } := by
  have hongoing : w.ongoing = true := by
    apply h.unaccepted
    rw [hsink]
    rfl
  exact ⟨fun _ ↦ h.sinkFlag (by simp [hsink]),
    fun _ _ ↦ h.serverFlag hongoing (by simp [hsink]), by rintro ⟨⟩,
    fun _ ↦ ⟨hongoing, rfl⟩, fun hw ↦ by simp [hworker] at hw, h.messages⟩

theorem shielded_stopFlushing {w : World} (h : Shielded w) (hsink : w.sink = .flushed) :
    Shielded { w with delegate := w.delegate.stopFlushing, sink := .idle } := by
  refine ⟨fun hidle ↦ absurd rfl hidle, fun hongoing _ ↦ h.serverFlag hongoing (by simp [hsink]),
    by rintro ⟨⟩, fun hset ↦ ⟨(h.accepted hset).1, rfl⟩, fun hw ↦ ?_, h.messages⟩
  obtain ⟨hongoing, -, hflushing⟩ := h.confirming hw
  exact ⟨hongoing, rfl, hflushing⟩

theorem shielded_sourceFlushed {w : World} {id : SourceId} (h : Shielded w)
    (hflushing : w.isFlushing id = true) :
    Shielded { w with client := w.client.handleSourceFlushed id, worker := .confirming id } := by
  have hafter := isFlushing_handleSourceFlushed w id w.sourceId
  refine ⟨h.sinkFlag, h.serverFlag, h.unaccepted, fun hset ↦ ?_, fun hw ↦ ?_, h.messages⟩
  · apply h.accepted
    have hset := hafter.symm.trans hset
    split at hset
    · cases hset
    · exact hset
  · obtain rfl : id = w.sourceId := by simpa using hw
    obtain ⟨hongoing, haccepted⟩ := h.accepted hflushing
    exact ⟨hongoing, haccepted, hafter.trans (if_pos rfl)⟩

theorem shielded_handleFlushCompleted {w : World} (h : Shielded w)
    (hworker : w.worker = .confirming w.sourceId) :
    Shielded { w with
      delegate := w.delegate.handleFlushCompleted
      worker := .completed w.sourceId
      ongoing := false } := by
  obtain ⟨-, haccepted, hflushing⟩ := h.confirming hworker
  exact ⟨h.sinkFlag, by rintro ⟨⟩, fun hunaccepted ↦ absurd (haccepted.symm.trans hunaccepted)
    (by simp), fun hset ↦ absurd (hflushing.symm.trans hset) (by simp), by rintro ⟨⟩, h.messages⟩

theorem shielded_handleEos {w : World} (h : Shielded w) (current : GstState) :
    Shielded { w with
      messages := w.messages ++
        ((postedByHandleEos w.delegate current).map (·, w.ongoing)).toList } := by
  refine ⟨h.sinkFlag, h.serverFlag, h.unaccepted, h.accepted, h.confirming, ?_⟩
  rw [List.mem_append]
  rintro (hold | hnew)
  · exact h.messages hold
  · obtain ⟨message, hposted, hmessage⟩ : ∃ message,
        postedByHandleEos w.delegate current = some message ∧
          (message, w.ongoing) = (.eos, true) := by
      simpa using hnew
    obtain ⟨rfl, hongoing⟩ := Prod.mk.inj hmessage
    unfold postedByHandleEos at hposted
    split at hposted
    · cases hposted
    · split at hposted
      · next hflags =>
          rcases h.silenced.flags hongoing with hset | hset <;> simp [hset] at hflags
      · cases hposted

theorem shielded_step {w w' : World} {e : Section} (h : Shielded w)
    (horderly : w.isOrderly e = true) (hstep : w.step e = some w') : Shielded w' := by
  cases e with
  | startFlushing =>
      simp only [World.step] at hstep
      split at hstep <;> cases hstep
      exact shielded_startFlushing h (by simpa using (Bool.and_eq_true_iff.mp horderly).2)
  | flushServer =>
      simp only [World.step] at hstep
      split at hstep <;> cases hstep
      exact shielded_flushServer h (of_decide_eq_true horderly)
  | notifyFlushStarted =>
      simp only [World.step] at hstep
      split at hstep
      · next hsink =>
          cases hstep
          exact shielded_notifyFlushStarted h hsink _
      · cases hstep
  | flush resetTime answer =>
      simp only [World.step] at hstep
      split at hstep
      · next hsink =>
          cases hstep
          exact shielded_flush h hsink.1 hsink.2 _
      · cases hstep
  | stopFlushing =>
      simp only [World.step] at hstep
      split at hstep
      · next hsink =>
          cases hstep
          exact shielded_stopFlushing h hsink
      · cases hstep
  | sourceFlushed id =>
      simp only [World.step] at hstep
      split at hstep
      · split at hstep
        · next hflushing =>
            cases hstep
            exact shielded_sourceFlushed h hflushing
        · cases hstep
          exact h
      · cases hstep
  | handleFlushCompleted =>
      simp only [World.step] at hstep
      split at hstep
      · next id hworker =>
          split at hstep
          · next hid =>
              cases hstep
              subst hid
              exact shielded_handleFlushCompleted h hworker
          · next hid =>
              cases hstep
              exact h.congr rfl rfl rfl rfl rfl rfl (by rintro ⟨⟩) rfl
      · cases hstep
  | notifyFlushCompleted =>
      simp only [World.step] at hstep
      split at hstep
      · cases hstep
        exact h.congr rfl rfl rfl rfl rfl rfl (by rintro ⟨⟩) rfl
      · cases hstep
  | handleEos current =>
      simp only [World.step] at hstep
      split at hstep <;> cases hstep
      exact shielded_handleEos h current
  | delegate e =>
      simp only [World.step] at hstep
      split at hstep
      · cases hstep
      · next hflush =>
          obtain ⟨delegate, hdelegate, rfl⟩ := Option.map_eq_some_iff.mp hstep
          obtain ⟨hsinkFlag, hserverFlag⟩ := flags_of_step (Bool.eq_false_iff.mpr hflush)
            (by rintro rfl; cases horderly) (by rintro rfl; cases horderly) hdelegate
          exact h.congr rfl hsinkFlag hserverFlag rfl rfl rfl (fun hw ↦ hw) rfl

/-! ## Runs -/

theorem silenced_of_run {w w' : World} {es : List Section} (hcalm : w.Calm)
    (hrun : orderlySections.run w es = some w') : Silenced w' := by
  have hshielded : Shielded w' := by
    refine orderlySections.invariant (fun s e t hs hstep ↦ ?_) (shielded_of_calm hcalm) hrun
    obtain ⟨horderly, hstep⟩ := sections.restrict_step_eq_some_iff.mp hstep
    exact shielded_step hs horderly hstep
  exact hshielded.silenced

/-- An attached source and a sink that is playing. -/
def calmWorld : World where
  sourceId := 1
  client := { attachedSources := (∅ : Table _ _).insert 1 { type := .video } }

/-- The confirmation overtakes the end of `FLUSH_STOP`, and the next flush is
interrupted by the end of the stream before it. -/
def confirmedEarly : List Section :=
  [.startFlushing, .handleEos .playing, .flushServer, .notifyFlushStarted,
    .flush true (some false), .sourceFlushed 1, .handleFlushCompleted, .notifyFlushCompleted,
    .stopFlushing, .handleEos .playing, .startFlushing, .handleEos .playing, .flushServer,
    .notifyFlushStarted, .flush true (some false), .stopFlushing, .handleEos .playing]

theorem confirmedEarly_run : ∃ w, orderlySections.run calmWorld confirmedEarly = some w ∧
    w.messages = [(.eos, false)] ∧ w.ongoing = true :=
  ⟨_, rfl, rfl, rfl⟩

theorem silenced_confirmedEarly : ∃ w, orderlySections.run calmWorld confirmedEarly = some w ∧
    w.ongoing = true ∧ Silenced w := by
  obtain ⟨w, hrun, -, hongoing⟩ := confirmedEarly_run
  exact ⟨w, hrun, hongoing, silenced_of_run ⟨rfl, rfl, rfl, rfl, rfl⟩ hrun⟩

end RialtoGStreamer.Flush
