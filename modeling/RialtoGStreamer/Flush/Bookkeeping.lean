import RialtoGStreamer.Flush.Synchronizer
import RialtoGStreamer.MediaPlayerClient.Moves

/-!
# The flush of a source, across its threads

A flush passes through the sink's thread (`startFlushing`, `stopFlushing`), the
worker of the backend queue (`flush`, `handleSourceFlushed`) and the server,
while the puller of the source completes its pulls in between. The flush state
is kept by the client and by the synchronizer; here is when the two agree.
-/

namespace RialtoGStreamer.Flush

open Library MediaPlayerClient

/-- Where the sink of a source is in its flush sequence: outside, past
`waitIfRequired`, or inside `client->flush`, waiting for the event loop. -/
inductive SinkPc where
  | idle
  | started
  | notified
  deriving DecidableEq

/-- `serverFlushes` are the accepted flush commands that the server has not
confirmed, `notifications` the confirmations in the backend queue. `completing`
is the source in the middle of `handleSourceFlushed`, `pulling` the sources
whose puller is inside `PullBufferMessage::handle`. -/
structure State where
  client : Client := {}
  synchronizer : Synchronizer := {}
  sink : SourceId → SinkPc := fun _ ↦ .idle
  completing : Option SourceId := none
  pulling : List SourceId := []
  serverFlushes : List SourceId := []
  notifications : List SourceId := []

inductive Event where
  | waitIfRequired (id : SourceId)
  | notifyFlushStarted (id : SourceId)
  | flush (id : SourceId) (resetTime async : Bool)
  | sourceFlushed (id : SourceId)
  | handleSourceFlushed
  | notifyFlushCompleted
  | notifyDataReceived (id : SourceId)
  | beginPull (id : SourceId)
  | endPull (id : SourceId) (pushed : Bool)

namespace State

def isAttached (s : State) (id : SourceId) : Bool :=
  (s.client.attachedSources.lookup id).isSome

/-- `m_isFlushing` of an attached source. -/
def isFlushing (s : State) (id : SourceId) : Bool :=
  (s.client.attachedSources.lookup id).any (·.isFlushing)

def goto (s : State) (id : SourceId) (pc : SinkPc) : State :=
  { s with sink := Function.update s.sink id pc }

/-- Attach a source, in the client and in the synchronizer. -/
def attach (s : State) (source : SourceId × MediaSourceType) : State :=
  if s.isAttached source.1 then s
  else { s with
    client := { s.client with
      attachedSources := s.client.attachedSources.insert source.1 { type := source.2 } }
    synchronizer := s.synchronizer.addSource source.1 }

/-- Any number of attached sources, none of which has been flushed. -/
def start (sources : List (SourceId × MediaSourceType)) : State :=
  sources.foldl attach {}

/-- A step of one of the threads. The worker runs `flush` and the messages of
its queue one at a time; a pull ends with `notifyDataPushed` when its status is
OK or EOS. -/
def step (s : State) : Event → Option State
  | .waitIfRequired id =>
      if s.isAttached id ∧ s.sink id = .idle ∧ s.synchronizer.mayProceed id then
        some (s.goto id .started)
      else none
  | .notifyFlushStarted id =>
      if s.sink id = .started then
        some ({ s with synchronizer := s.synchronizer.notifyFlushStarted id }.goto id .notified)
      else none
  | .flush id resetTime async =>
      if s.sink id = .notified ∧ s.completing = none then
        some ({ s with
          client := s.client.flush id resetTime (some async)
          serverFlushes := s.serverFlushes ++ [id] }.goto id .idle)
      else none
  | .sourceFlushed id =>
      if id ∈ s.serverFlushes then
        some { s with
          serverFlushes := s.serverFlushes.erase id
          notifications := s.notifications ++ [id] }
      else none
  | .handleSourceFlushed =>
      match s.completing, s.notifications with
      | none, id :: notifications =>
          if s.isFlushing id then
            some { s with
              client := s.client.handleSourceFlushed id
              completing := some id
              notifications := notifications }
          else some { s with notifications := notifications }
      | _, _ => none
  | .notifyFlushCompleted =>
      match s.completing with
      | some id => some { s with
          synchronizer := s.synchronizer.notifyFlushCompleted id
          completing := none }
      | none => none
  | .notifyDataReceived id =>
      if s.isAttached id then
        some { s with synchronizer := s.synchronizer.notifyDataReceived id }
      else none
  | .beginPull id =>
      if s.isAttached id ∧ id ∉ s.pulling then some { s with pulling := id :: s.pulling }
      else none
  | .endPull id pushed =>
      if id ∈ s.pulling then
        some { s with
          synchronizer :=
            if pushed then s.synchronizer.notifyDataPushed id else s.synchronizer
          pulling := s.pulling.erase id }
      else none

end State

def machine : Machine State Event where
  step := State.step

/-- No pull ends with `notifyDataPushed` while the source is recorded as flushing. -/
def Unhurried (s : State) : Event → Prop
  | .endPull id true => (s.synchronizer.get id).flushState ≠ .flushing
  | _ => True

/-- What both the client and the synchronizer say about the flushes. -/
structure Bookkept (s : State) : Prop where
  recorded : ∀ id, s.isFlushing id = true → (s.synchronizer.get id).flushState = .flushing
  reported : ∀ id, id ∈ s.serverFlushes ++ s.notifications →
    s.synchronizer.isAnySourceFlushing = true
  blocked : ∀ id, id ∈ s.serverFlushes ++ s.notifications →
    s.synchronizer.mayProceed id = false ∧ s.sink id = .idle
  single : ∀ id, (s.serverFlushes ++ s.notifications).count id ≤ 1

/-- The flush of one source, from `notifyFlushStarted` to `notifyFlushCompleted`. -/
inductive Phase (s : State) (id : SourceId) : Prop
  | quiet (hsink : s.sink id ≠ .notified)
      (hsync : (s.synchronizer.get id).flushState ≠ .flushing)
      (hflag : s.isFlushing id = false)
      (hout : (s.serverFlushes ++ s.notifications).count id = 0)
      (hworker : s.completing ≠ some id)
  | notified (hsink : s.sink id = .notified)
      (hsync : (s.synchronizer.get id).flushState = .flushing)
      (hflag : s.isFlushing id = false)
      (hout : (s.serverFlushes ++ s.notifications).count id = 0)
      (hworker : s.completing ≠ some id)
  | outstanding (hsink : s.sink id = .idle)
      (hsync : (s.synchronizer.get id).flushState = .flushing)
      (hflag : s.isFlushing id = true)
      (hout : (s.serverFlushes ++ s.notifications).count id = 1)
      (hworker : s.completing ≠ some id)
  | completing (hsink : s.sink id = .idle)
      (hsync : (s.synchronizer.get id).flushState = .flushing)
      (hflag : s.isFlushing id = false)
      (hout : (s.serverFlushes ++ s.notifications).count id = 0)
      (hworker : s.completing = some id)

theorem bookkept_of_phase {s : State} (h : ∀ id, Phase s id) : Bookkept s := by
  have hout : ∀ id, id ∈ s.serverFlushes ++ s.notifications →
      (s.synchronizer.get id).flushState = .flushing ∧ s.sink id = .idle := by
    intro id hmem
    have hpos := List.count_pos_iff.mpr hmem
    cases h id with
    | outstanding hsink hsync => exact ⟨hsync, hsink⟩
    | quiet _ _ _ hout | notified _ _ _ hout | completing _ _ _ hout => omega
  refine ⟨fun id hflag ↦ ?_, fun id hmem ↦ ?_, fun id hmem ↦ ?_, fun id ↦ ?_⟩
  · cases h id with
    | outstanding _ hsync => exact hsync
    | quiet _ _ hnot | notified _ _ hnot | completing _ _ hnot => simp [hflag] at hnot
  · exact Synchronizer.isAnySourceFlushing_iff.mpr ⟨id, (hout id hmem).1⟩
  · exact ⟨Synchronizer.mayProceed_of_flushing (hout id hmem).1, (hout id hmem).2⟩
  · cases h id with
    | outstanding _ _ _ hout => omega
    | quiet _ _ _ hout | notified _ _ _ hout | completing _ _ _ hout => omega

/-! ## One step -/

theorem Phase.congr {s s' : State} {id : SourceId} (h : Phase s id)
    (hsink : s'.sink id = s.sink id)
    (hsync : (s'.synchronizer.get id).flushState = (s.synchronizer.get id).flushState)
    (hflag : s'.isFlushing id = s.isFlushing id)
    (hout : (s'.serverFlushes ++ s'.notifications).count id =
      (s.serverFlushes ++ s.notifications).count id)
    (hworker : s'.completing = some id ↔ s.completing = some id) : Phase s' id := by
  cases h with
  | quiet hsink' hsync' hflag' hout' hworker' =>
      exact .quiet (by rwa [hsink]) (by rwa [hsync]) (hflag.trans hflag') (hout.trans hout')
        (by rwa [Ne, hworker])
  | notified hsink' hsync' hflag' hout' hworker' =>
      exact .notified (hsink.trans hsink') (hsync.trans hsync') (hflag.trans hflag')
        (hout.trans hout') (by rwa [Ne, hworker])
  | outstanding hsink' hsync' hflag' hout' hworker' =>
      exact .outstanding (hsink.trans hsink') (hsync.trans hsync') (hflag.trans hflag')
        (hout.trans hout') (by rwa [Ne, hworker])
  | completing hsink' hsync' hflag' hout' hworker' =>
      exact .completing (hsink.trans hsink') (hsync.trans hsync') (hflag.trans hflag')
        (hout.trans hout') (hworker.mpr hworker')

theorem isAttached_flush (c : Client) (id j : SourceId) (resetTime : Bool)
    (answer : Option Bool) :
    ((c.flush id resetTime answer).attachedSources.lookup j).isSome =
      (c.attachedSources.lookup j).isSome := by
  have hm := flush_move c id resetTime answer
  generalize c.flush id resetTime answer = c' at hm
  cases hm with
  | notAttached | refused => rfl
  | kept hid => by_cases hj : j = id <;> simp [hj]
  | lost hid => by_cases hj : j = id <;> simp [hj]

theorem isFlushing_flush {c : Client} {id : SourceId}
    (hid : (c.attachedSources.lookup id).isSome = true) (resetTime async : Bool)
    (j : SourceId) :
    ((c.flush id resetTime (some async)).attachedSources.lookup j).any (·.isFlushing) =
      if j = id then true else (c.attachedSources.lookup j).any (·.isFlushing) := by
  have hm := flush_move c id resetTime (some async)
  generalize c.flush id resetTime (some async) = c' at hm
  obtain ⟨source, hsource⟩ := Option.isSome_iff_exists.mp hid
  cases hm with
  | notAttached hnone => simp [hsource] at hnone
  | kept | lost =>
      rcases eq_or_ne j id with rfl | hj
      · simp [hsource]
      · simp [hj]

/-- What is known of every source. -/
structure Tracked (s : State) : Prop where
  phase : ∀ id, Phase s id
  attached : ∀ id, s.sink id ≠ .idle → s.isAttached id = true

@[simp] theorem State.goto_sink (s : State) (id j : SourceId) (pc : SinkPc) :
    (s.goto id pc).sink j = if j = id then pc else s.sink j := by
  simp [State.goto, Function.update_apply]

theorem tracked_waitIfRequired {s : State} {id : SourceId} (h : Tracked s)
    (hid : s.isAttached id = true) (hsink : s.sink id = .idle)
    (hmay : s.synchronizer.mayProceed id = true) : Tracked (s.goto id .started) := by
  have hsync : (s.synchronizer.get id).flushState ≠ .flushing := by
    intro hflushing
    simp [Synchronizer.mayProceed_of_flushing hflushing] at hmay
  refine ⟨fun j ↦ ?_, fun j hj ↦ ?_⟩
  · rcases eq_or_ne j id with rfl | hne
    · cases h.phase j with
      | quiet _ _ hflag hout hworker => exact .quiet (by simp) hsync hflag hout hworker
      | notified _ hsync' | outstanding _ hsync' | completing _ hsync' => exact absurd hsync' hsync
    · exact (h.phase j).congr (by simp [hne]) rfl rfl rfl Iff.rfl
  · rcases eq_or_ne j id with rfl | hne
    · exact hid
    · exact h.attached j (by simpa [hne] using hj)

theorem tracked_notifyFlushStarted {s : State} {id : SourceId} (h : Tracked s)
    (hsink : s.sink id = .started) :
    Tracked ({ s with synchronizer := s.synchronizer.notifyFlushStarted id }.goto id
      .notified) := by
  refine ⟨fun j ↦ ?_, fun j hj ↦ ?_⟩
  · rcases eq_or_ne j id with rfl | hne
    · cases h.phase j with
      | quiet _ _ hflag hout hworker =>
          exact .notified (by simp)
            (by simp [State.goto, Synchronizer.flushState_notifyFlushStarted])
            hflag hout hworker
      | notified hsink' | outstanding hsink' | completing hsink' => simp [hsink] at hsink'
    · refine (h.phase j).congr (by simp [hne]) ?_ rfl rfl Iff.rfl
      simp [State.goto, Synchronizer.flushState_notifyFlushStarted, hne]
  · rcases eq_or_ne j id with rfl | hne
    · exact h.attached j (by simp [hsink])
    · exact h.attached j (by simpa [hne] using hj)

theorem tracked_flush {s : State} {id : SourceId} {resetTime async : Bool} (h : Tracked s)
    (hsink : s.sink id = .notified) :
    Tracked ({ s with
      client := s.client.flush id resetTime (some async)
      serverFlushes := s.serverFlushes ++ [id] }.goto id .idle) := by
  have hflag := isFlushing_flush (h.attached id (by simp [hsink])) resetTime async
  refine ⟨fun j ↦ ?_, fun j hj ↦ ?_⟩
  · rcases eq_or_ne j id with rfl | hne
    · cases h.phase j with
      | notified _ hsync _ hout hworker =>
          refine .outstanding (by simp) hsync ?_ ?_ hworker
          · exact (hflag j).trans (if_pos rfl)
          · simp only [State.goto, List.count_append] at hout ⊢
            simp
            omega
      | quiet hsink' => exact absurd hsink hsink'
      | outstanding hsink' | completing hsink' => simp [hsink] at hsink'
    · refine (h.phase j).congr (by simp [hne]) rfl ?_ ?_ Iff.rfl
      · exact (hflag j).trans (if_neg hne)
      · simp [State.goto, List.count_append, Ne.symm hne]
  · rcases eq_or_ne j id with rfl | hne
    · simp at hj
    · exact (isAttached_flush _ _ _ _ _).trans (h.attached j (by simpa [hne] using hj))

theorem tracked_sourceFlushed {s : State} {id : SourceId} (h : Tracked s)
    (hid : id ∈ s.serverFlushes) :
    Tracked { s with
      serverFlushes := s.serverFlushes.erase id
      notifications := s.notifications ++ [id] } := by
  refine ⟨fun j ↦ (h.phase j).congr rfl rfl rfl ?_ Iff.rfl, h.attached⟩
  have hperm : (s.serverFlushes.erase id ++ (s.notifications ++ [id])).Perm
      (s.serverFlushes ++ s.notifications) := by
    rw [← List.append_assoc]
    apply (List.perm_append_singleton _ _).trans
    rw [← List.cons_append]
    exact (List.perm_cons_erase hid).symm.append_right _
  exact hperm.count_eq j

/-- The confirmation of an outstanding flush. -/
theorem tracked_handleSourceFlushed {s : State} {id : SourceId} {notifications : List SourceId}
    (h : Tracked s) (hworker : s.completing = none)
    (hnotifications : s.notifications = id :: notifications) :
    s.isFlushing id = true ∧ Tracked { s with
      client := s.client.handleSourceFlushed id
      completing := some id
      notifications := notifications } := by
  have hcount : ∀ j, (s.serverFlushes ++ s.notifications).count j =
      (s.serverFlushes ++ notifications).count j + if j = id then 1 else 0 := by
    intro j
    rw [hnotifications, List.count_append, List.count_append, List.count_cons]
    rcases eq_or_ne j id with rfl | hne
    · simp
      omega
    · simp [hne, Ne.symm hne]
  have hflag : ∀ j, ((s.client.handleSourceFlushed id).attachedSources.lookup j).any
      (·.isFlushing) = if j = id then false else s.isFlushing j := by
    intro j
    rcases eq_or_ne j id with rfl | hne
    · cases hsource : s.client.attachedSources.lookup j <;>
        simp [Client.handleSourceFlushed, hsource]
    · simp [Client.handleSourceFlushed, State.isFlushing, hne]
  have hattached : ∀ j, ((s.client.handleSourceFlushed id).attachedSources.lookup j).isSome =
      (s.client.attachedSources.lookup j).isSome := by
    intro j
    by_cases hj : j = id <;> simp [Client.handleSourceFlushed, hj]
  have hout : (s.serverFlushes ++ s.notifications).count id ≠ 0 := by
    have := hcount id
    rw [if_pos rfl] at this
    omega
  have hphase := h.phase id
  cases hphase with
  | quiet _ _ _ hzero | notified _ _ _ hzero | completing _ _ _ hzero => exact absurd hzero hout
  | outstanding hsink hsync hset hone _ =>
      refine ⟨hset, fun j ↦ ?_, fun j hj ↦ (hattached j).trans (h.attached j hj)⟩
      rcases eq_or_ne j id with rfl | hne
      · refine .completing hsink hsync ((hflag j).trans (if_pos rfl)) ?_ rfl
        have := hcount j
        simp only [if_pos] at this
        change (s.serverFlushes ++ notifications).count j = 0
        omega
      · refine (h.phase j).congr rfl rfl ((hflag j).trans (if_neg hne)) ?_ ?_
        · have := hcount j
          simp only [if_neg hne] at this
          exact this.symm
        · simp [hworker, Ne.symm hne]

theorem tracked_notifyFlushCompleted {s : State} {id : SourceId} (h : Tracked s)
    (hworker : s.completing = some id) :
    Tracked { s with
      synchronizer := s.synchronizer.notifyFlushCompleted id
      completing := none } := by
  refine ⟨fun j ↦ ?_, h.attached⟩
  have hsync := s.synchronizer.flushState_notifyFlushCompleted j id
  rcases eq_or_ne j id with rfl | hne
  · cases h.phase j with
    | completing hsink _ hflag hout =>
        exact .quiet (by simp [hsink]) (by simp [hsync]) hflag hout (by simp)
    | quiet _ _ _ _ hnot | notified _ _ _ _ hnot | outstanding _ _ _ _ hnot =>
        exact absurd hworker hnot
  · exact (h.phase j).congr rfl (hsync.trans (if_neg hne)) rfl rfl
      (by simp [hworker, Ne.symm hne])

theorem tracked_endPull {s : State} {id : SourceId} (h : Tracked s)
    (hcalm : (s.synchronizer.get id).flushState ≠ .flushing) (pulling : List SourceId) :
    Tracked { s with
      synchronizer := s.synchronizer.notifyDataPushed id
      pulling := pulling } := by
  refine ⟨fun j ↦ ?_, h.attached⟩
  have hsync := s.synchronizer.flushState_notifyDataPushed j id
  rcases eq_or_ne j id with rfl | hne
  · cases h.phase j with
    | quiet hsink _ hflag hout hworker =>
        exact .quiet hsink (by simp [hsync]) hflag hout hworker
    | notified _ hflushing | outstanding _ hflushing | completing _ hflushing =>
        exact absurd hflushing hcalm
  · exact (h.phase j).congr rfl (hsync.trans (if_neg hne)) rfl rfl Iff.rfl

theorem tracked_step {s s' : State} {e : Event} (h : Tracked s) (hcalm : Unhurried s e)
    (hstep : s.step e = some s') : Tracked s' := by
  cases e with
  | waitIfRequired id =>
      simp only [State.step] at hstep
      split at hstep
      · next hmay =>
          cases hstep
          exact tracked_waitIfRequired h hmay.1 hmay.2.1 hmay.2.2
      · cases hstep
  | notifyFlushStarted id =>
      simp only [State.step] at hstep
      split at hstep
      · next hsink =>
          cases hstep
          exact tracked_notifyFlushStarted h hsink
      · cases hstep
  | flush id resetTime async =>
      simp only [State.step] at hstep
      split at hstep
      · next hsink =>
          cases hstep
          exact tracked_flush h hsink.1
      · cases hstep
  | sourceFlushed id =>
      simp only [State.step] at hstep
      split at hstep
      · next hid =>
          cases hstep
          exact tracked_sourceFlushed h hid
      · cases hstep
  | handleSourceFlushed =>
      simp only [State.step] at hstep
      split at hstep
      · next hworker hnotifications =>
          obtain ⟨hset, htracked⟩ := tracked_handleSourceFlushed h hworker hnotifications
          rw [if_pos hset] at hstep
          cases hstep
          exact htracked
      · cases hstep
  | notifyFlushCompleted =>
      simp only [State.step] at hstep
      split at hstep
      · next hworker =>
          cases hstep
          exact tracked_notifyFlushCompleted h hworker
      · cases hstep
  | notifyDataReceived id =>
      simp only [State.step] at hstep
      split at hstep
      · cases hstep
        refine ⟨fun j ↦ (h.phase j).congr rfl ?_ rfl rfl Iff.rfl, h.attached⟩
        exact s.synchronizer.flushState_notifyDataReceived j id
      · cases hstep
  | beginPull id =>
      simp only [State.step] at hstep
      split at hstep
      · cases hstep
        exact ⟨fun j ↦ (h.phase j).congr rfl rfl rfl rfl Iff.rfl, h.attached⟩
      · cases hstep
  | endPull id pushed =>
      simp only [State.step] at hstep
      split at hstep
      · cases hstep
        cases pushed with
        | true => exact tracked_endPull h hcalm _
        | false => exact ⟨fun j ↦ (h.phase j).congr rfl rfl rfl rfl Iff.rfl, h.attached⟩
      · cases hstep

/-! ## Runs -/

/-- No source has been flushed. -/
structure Fresh (s : State) : Prop where
  sink : ∀ id, s.sink id = .idle
  synchronizer : ∀ id, (s.synchronizer.get id).flushState = .idle
  flag : ∀ id, s.isFlushing id = false
  out : s.serverFlushes ++ s.notifications = []
  worker : s.completing = none

theorem Fresh.tracked {s : State} (h : Fresh s) : Tracked s := by
  refine ⟨fun id ↦ .quiet ?_ ?_ (h.flag id) (by simp [h.out]) ?_, fun id hid ↦ ?_⟩
  · simp [h.sink id]
  · simp [h.synchronizer id]
  · simp [h.worker]
  · exact absurd (h.sink id) hid

theorem fresh_attach {s : State} (source : SourceId × MediaSourceType) (h : Fresh s) :
    Fresh (s.attach source) := by
  unfold State.attach
  split
  · exact h
  · refine ⟨h.sink, fun id ↦ ?_, fun id ↦ ?_, h.out, h.worker⟩
    · rw [Synchronizer.flushState_addSource]
      split
      · rfl
      · exact h.synchronizer id
    · have hflag := h.flag id
      simp only [State.isFlushing, Table.lookup_insert] at hflag ⊢
      split
      · rfl
      · exact hflag

theorem fresh_start (sources : List (SourceId × MediaSourceType)) :
    Fresh (State.start sources) := by
  have hfold : ∀ s, Fresh s → Fresh (sources.foldl State.attach s) := by
    induction sources with
    | nil => exact fun s h ↦ h
    | cons source sources ih => exact fun s h ↦ ih _ (fresh_attach source h)
  exact hfold {} ⟨fun _ ↦ rfl, fun _ ↦ rfl, fun _ ↦ rfl, rfl, rfl⟩

/-- The two records agree throughout a run in which no pull is reported as
pushed while its source is flushing. -/
theorem always_bookkept {sources : List (SourceId × MediaSourceType)} {es : List Event}
    (hcalm : machine.Meets Unhurried (State.start sources) es) :
    machine.Always Bookkept (State.start sources) es :=
  machine.always_of_meets (fun _ _ _ h hc hstep ↦ tracked_step h hc hstep)
    (fun _ h ↦ bookkept_of_phase h.phase) (fresh_start sources).tracked hcalm

/-- A pull, and after it a whole flush. -/
def pullThenFlush : List Event :=
  [.beginPull 1, .endPull 1 true, .waitIfRequired 1, .notifyFlushStarted 1, .flush 1 false true,
    .sourceFlushed 1, .handleSourceFlushed, .notifyFlushCompleted]

theorem always_bookkept_pullThenFlush :
    (machine.run (State.start [(1, .video)]) pullThenFlush).isSome = true ∧
      machine.Always Bookkept (State.start [(1, .video)]) pullThenFlush := by
  refine ⟨by decide, always_bookkept ⟨trivial, fun s hs ↦ ⟨?_, fun _ _ ↦ ?_⟩⟩⟩
  · cases hs
    unfold Unhurried
    decide
  · simp [Machine.Meets, Unhurried]

/-- A pull that began before the flush is reported as pushed during it. -/
def flushDuringPull : List Event :=
  [.beginPull 1, .waitIfRequired 1, .notifyFlushStarted 1, .flush 1 false true, .endPull 1 true]

theorem unrecorded_flush_reachable : ¬∀ (sources : List (SourceId × MediaSourceType))
    (es : List Event), machine.Always Bookkept (State.start sources) es := by
  intro h
  obtain ⟨s, hs⟩ : ∃ s, machine.run (State.start [(1, .video)]) flushDuringPull = some s :=
    Option.isSome_iff_exists.mp (by decide)
  have hend : (machine.run (State.start [(1, .video)]) flushDuringPull).map
      (fun s ↦ (s.isFlushing 1, (s.synchronizer.get 1).flushState)) = some (true, .idle) := by
    decide
  rw [hs] at hend
  simp only [Option.map_some, Option.some.injEq, Prod.mk.injEq] at hend
  have hrecorded := ((h [(1, .video)] flushDuringPull).last machine hs).recorded 1 hend.1
  rw [hend.2] at hrecorded
  cases hrecorded

end RialtoGStreamer.Flush
