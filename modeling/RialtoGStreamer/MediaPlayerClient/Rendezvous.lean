import RialtoGStreamer.MediaPlayerClient.Moves

/-!
# The rendezvous of the sources

`pause` and `play` are sent once every attached source has asked. The sources
ask one by one, and a source that has asked does not ask again, so whoever
changes the set of sources or the state of one of them has to look whether
the others were waiting for just that. Here is when nobody is left waiting.
-/

namespace RialtoGStreamer.MediaPlayerClient

open Library

/-- Every attached source waits for a `pause` that was not sent. -/
def WaitsToPause (m : Members) : Prop :=
  m.clientState = .ready ∧ (∃ id source, m.attachedSources.lookup id = some source) ∧
    AllIn m [.awaitingPaused]

/-- Some source waits for a `play` that was not sent, and no source is missing. -/
def WaitsToPlay (m : Members) : Prop :=
  m.clientState = .paused ∧
    (∃ id source, m.attachedSources.lookup id = some source ∧ source.state = .awaitingPlaying) ∧
      AllIn m [.awaitingPlaying, .playing]

def Orphaned (m : Members) : Prop :=
  WaitsToPause m ∨ WaitsToPlay m

/-- The notifications are those of PLAYING and PAUSED. -/
def Event.isPlayback : Event → Bool
  | .handlePlaybackStateChange state _ => state = .playing ∨ state = .paused
  | _ => true

/-- The client whose server notifies PLAYING and PAUSED only. -/
def playbackMachine : Machine Client Event :=
  machine.restrict fun _ e ↦ e.isPlayback = true

/-- Every attached source but `id` is in one of the states. -/
def OthersIn (m : Members) (id : SourceId) (states : List ClientState) : Prop :=
  ∀ j source, j ≠ id → m.attachedSources.lookup j = some source → source.state ∈ states

/-- A source other than `id` awaits PLAYING. -/
def OtherAwaitsPlaying (m : Members) (id : SourceId) : Prop :=
  ∃ j source, j ≠ id ∧ m.attachedSources.lookup j = some source ∧
    source.state = .awaitingPlaying

/-- The steps after which the waiting sources need not be looked at again. -/
def Rejoins (c : Client) : Event → Prop
  | .removeSource id =>
      ¬(c.clientState = .ready ∧ OthersIn c.toMembers id [.awaitingPaused] ∧
          ∃ j source, j ≠ id ∧ c.attachedSources.lookup j = some source) ∧
        ¬(c.clientState = .paused ∧ OthersIn c.toMembers id [.awaitingPlaying, .playing] ∧
          OtherAwaitsPlaying c.toMembers id)
  | .flush id _ (some true) =>
      ¬(c.clientState = .ready ∧ OthersIn c.toMembers id [.awaitingPaused] ∧
        ∃ source, c.attachedSources.lookup id = some source)
  | .handlePlaybackStateChange .paused visits =>
      ¬(c.clientState = .awaitingPaused ∧ AllIn c.toMembers [.awaitingPlaying, .playing] ∧
        (∃ id source, c.attachedSources.lookup id = some source ∧
          source.state = .awaitingPlaying) ∧ ∀ visit ∈ visits, visit.2 = none)
  | _ => True

/-- While the client is in PAUSED a server known to play leaves nobody waiting. -/
structure ServerAhead (c : Client) : Prop where
  noEos : c.serverPlaybackState ≠ .endOfStream
  noWaiter : c.clientState = .paused → c.serverPlaybackState = .playing →
    ∀ id source, c.attachedSources.lookup id = some source → source.state ≠ .awaitingPlaying

theorem not_orphaned {m : Members} (hready : m.clientState ≠ .ready)
    (hpaused : m.clientState ≠ .paused) : ¬Orphaned m := by
  rintro (h | h)
  · exact hready h.1
  · exact hpaused h.1

theorem allIn_setState_iff {c : Client} {id : SourceId} {source : AttachedSource}
    {state : ClientState} {states : List ClientState}
    (hid : c.attachedSources.lookup id = some source) :
    AllIn (c.setState id state).toMembers states ↔
      state ∈ states ∧ OthersIn c.toMembers id states := by
  constructor
  · intro h
    refine ⟨h id { source with state := state } (by simp [hid]), fun j other hj hother ↦ ?_⟩
    exact h j other (by simpa [hj] using hother)
  · rintro ⟨hstate, hothers⟩ j other hother
    by_cases hj : j = id
    · subst hj
      obtain rfl : { source with state := state } = other := by simpa [hid] using hother
      exact hstate
    · exact hothers j other hj (by simpa [hj] using hother)

theorem waitsToPause_setState_iff {c : Client} {id : SourceId} {source : AttachedSource}
    {state : ClientState} (hid : c.attachedSources.lookup id = some source) :
    WaitsToPause (c.setState id state).toMembers ↔
      c.clientState = .ready ∧ state = .awaitingPaused ∧
        OthersIn c.toMembers id [.awaitingPaused] := by
  have hsome : ∃ j other, (c.setState id state).attachedSources.lookup j = some other :=
    ⟨id, { source with state := state }, by simp [hid]⟩
  simp only [WaitsToPause, allIn_setState_iff hid, hsome, true_and, List.mem_singleton,
    Client.setState_clientState]

theorem waitsToPlay_setState_iff {c : Client} {id : SourceId} {source : AttachedSource}
    {state : ClientState} (hid : c.attachedSources.lookup id = some source) :
    WaitsToPlay (c.setState id state).toMembers ↔
      c.clientState = .paused ∧ (state = .awaitingPlaying ∨ OtherAwaitsPlaying c.toMembers id) ∧
        state ∈ [.awaitingPlaying, .playing] ∧
          OthersIn c.toMembers id [.awaitingPlaying, .playing] := by
  have hsome : (∃ j other, (c.setState id state).attachedSources.lookup j = some other ∧
      other.state = .awaitingPlaying) ↔
        state = .awaitingPlaying ∨ OtherAwaitsPlaying c.toMembers id := by
    constructor
    · rintro ⟨j, other, hother, hstate⟩
      by_cases hj : j = id
      · subst hj
        obtain rfl : { source with state := state } = other := by simpa [hid] using hother
        exact .inl hstate
      · exact .inr ⟨j, other, hj, by simpa [hj] using hother, hstate⟩
    · rintro (rfl | ⟨j, other, hj, hother, hstate⟩)
      · exact ⟨id, { source with state := .awaitingPlaying }, by simp [hid], rfl⟩
      · exact ⟨j, other, by simpa [hj] using hother, hstate⟩
  simp only [WaitsToPlay, allIn_setState_iff hid, hsome, Client.setState_clientState]

/-- A change of one source that makes nobody await PLAYING. -/
theorem ServerAhead.modify {c : Client} {f : AttachedSource → AttachedSource} (h : ServerAhead c)
    (id : SourceId)
    (hf : c.serverPlaybackState = .playing →
      ∀ source, (f source).state = .awaitingPlaying → source.state = .awaitingPlaying) :
    ServerAhead { c with attachedSources := Table.modify id f c.attachedSources } := by
  refine ⟨h.noEos, fun hpaused hplaying j source hj hwaits ↦ ?_⟩
  rw [Table.lookup_modify] at hj
  split at hj
  · obtain ⟨source', hj', rfl⟩ := Option.map_eq_some_iff.mp hj
    exact h.noWaiter hpaused hplaying j source' hj' (hf hplaying source' hwaits)
  · exact h.noWaiter hpaused hplaying j source hj hwaits

theorem ServerAhead.setState {c : Client} {state : ClientState} (h : ServerAhead c)
    (id : SourceId) (hstate : c.serverPlaybackState = .playing → state ≠ .awaitingPlaying) :
    ServerAhead (c.setState id state) :=
  h.modify id fun hplaying _ hwaits ↦ absurd hwaits (hstate hplaying)

/-! ## Playing and pausing -/

theorem serverAhead_play {c c' : Client} {id : SourceId} {async : Bool} {r : StateChangeResult}
    (h : ServerAhead c) (hm : PlayMove c id async c' r) : ServerAhead c' := by
  cases hm with
  | notAttached => exact h
  | alreadyPlaying =>
      have hset : ServerAhead (c.setState id .playing) := h.setState id (by simp)
      exact ⟨hset.noEos, hset.noWaiter⟩
  | allPlaying | send => exact ⟨h.noEos, fun hpaused ↦ by cases hpaused⟩
  | wait hid hs =>
      apply h.setState id
      intro hplaying
      simp [Members.isServerPlaying, hplaying] at hs

theorem serverAhead_pause {c c' : Client} {id : SourceId} {r : StateChangeResult}
    (h : ServerAhead c) (hm : PauseMove c id c' r) : ServerAhead c' := by
  cases hm with
  | notAttached => exact h
  | alreadyPaused =>
      have hset : ServerAhead (c.setState id .paused) := h.setState id (by simp)
      exact ⟨hset.noEos, hset.noWaiter⟩
  | wait => exact h.setState id (by simp)
  | allPaused hid hs =>
      refine ⟨h.noEos, fun _ hplaying ↦ ?_⟩
      have hplaying' : c.serverPlaybackState = .playing := hplaying
      simp [Members.isServerPaused, hplaying'] at hs
  | sendFromReady | sendFromPlaying => exact ⟨h.noEos, fun hpaused ↦ by cases hpaused⟩

theorem ServerAhead.not_otherAwaitsPlaying {c : Client} (h : ServerAhead c)
    (hpaused : c.clientState = .paused) (hs : c.isServerPlaying = true) (id : SourceId) :
    ¬OtherAwaitsPlaying c.toMembers id := by
  rintro ⟨j, other, -, hother, hstate⟩
  have hplaying : c.serverPlaybackState = .playing := by
    simpa [Members.isServerPlaying, h.noEos] using hs
  exact h.noWaiter hpaused hplaying j other hother hstate

theorem not_orphaned_play {c c' : Client} {id : SourceId} {async : Bool} {r : StateChangeResult}
    (h : ServerAhead c) (hm : PlayMove c id async c' r)
    (hp : ¬Orphaned c.toMembers) : ¬Orphaned c'.toMembers := by
  cases hm with
  | notAttached => exact hp
  | alreadyPlaying hid hs hall =>
      rintro (hw | hw)
      · simp [waitsToPause_setState_iff hid] at hw
      · obtain ⟨hpaused, hsome, -, -⟩ := (waitsToPlay_setState_iff hid).mp hw
        exact h.not_otherAwaitsPlaying hpaused hs id (by simpa using hsome)
  | allPlaying | send => exact not_orphaned (by simp) (by simp)
  | wait hid hs hnot =>
      rintro (hw | hw)
      · simp [waitsToPause_setState_iff hid] at hw
      · exact hnot hw.1 hw.2.2

theorem not_orphaned_pause {c c' : Client} {id : SourceId} {r : StateChangeResult}
    (hm : PauseMove c id c' r) (hp : ¬Orphaned c.toMembers) : ¬Orphaned c'.toMembers := by
  cases hm with
  | notAttached => exact hp
  | alreadyPaused hid hs hall =>
      rintro (hw | hw)
      · simp [waitsToPause_setState_iff hid] at hw
      · simp [waitsToPlay_setState_iff hid] at hw
  | allPaused hid hs hall =>
      rintro (hw | hw)
      · cases hw.1
      · obtain ⟨-, ⟨j, other, hother, hstate⟩, -⟩ := hw
        have hpaused := hall j other hother
        simp [hstate] at hpaused
  | sendFromReady | sendFromPlaying => exact not_orphaned (by simp) (by simp)
  | wait hid hs hnot =>
      rintro (hw | hw)
      · exact hnot.2.2 hw.1 hw.2.2
      · simp [waitsToPlay_setState_iff hid] at hw

/-! ## The sources, the handshake and flushes -/

theorem waitsToPlay_modify_iff {m : Members} {id : SourceId} {f : AttachedSource → AttachedSource}
    (hwaits : ∀ source, (f source).state = .awaitingPlaying ↔ source.state = .awaitingPlaying)
    (hplays : ∀ source, (f source).state = .playing ↔ source.state = .playing) :
    WaitsToPlay { m with attachedSources := Table.modify id f m.attachedSources } ↔
      WaitsToPlay m := by
  refine and_congr_right' (and_congr (Table.exists_lookup_modify_iff hwaits _ id)
    (Table.forall_lookup_modify_iff (fun source ↦ ?_) _ id))
  simp [hwaits, hplays]

theorem orphaned_modify_iff (m : Members) (id : SourceId) {f : AttachedSource → AttachedSource}
    (hf : ∀ source, (f source).state = source.state) :
    Orphaned { m with attachedSources := Table.modify id f m.attachedSources } ↔ Orphaned m := by
  have hsome := Table.exists_lookup_modify_iff (p := fun _ ↦ True) (f := f) (fun _ ↦ Iff.rfl)
    m.attachedSources id
  simp only [and_true] at hsome
  refine or_congr (and_congr_right' (and_congr hsome ?_)) (waitsToPlay_modify_iff ?_ ?_)
  · exact Table.forall_lookup_modify_iff (fun source ↦ by rw [hf source]) _ id
  · exact fun source ↦ by rw [hf source]
  · exact fun source ↦ by rw [hf source]

theorem serverAhead_flush {c c' : Client} {id : SourceId} {resetTime : Bool}
    {answer : Option Bool} (h : ServerAhead c) (hm : FlushMove c id resetTime answer c') :
    ServerAhead c' := by
  have hsend : ServerAhead
      ({ c with wasPlayingBeforeEos := false }.send (.flush id resetTime)) := ⟨h.noEos, h.noWaiter⟩
  cases hm with
  | notAttached => exact ⟨h.noEos, h.noWaiter⟩
  | refused => exact hsend
  | kept => exact hsend.modify id fun _ _ hwaits ↦ hwaits
  | lost hid hstate =>
      refine ⟨h.noEos, fun hpaused ↦ ?_⟩
      rcases hstate with ⟨-, rfl⟩ | ⟨-, rfl⟩ | ⟨-, hnot, rfl⟩
      · cases hpaused
      · cases hpaused
      · exact absurd hpaused hnot

theorem orphaned_flush_iff {c c' : Client} {id : SourceId} {resetTime : Bool}
    {answer : Option Bool} (hp : ¬Orphaned c.toMembers)
    (hm : FlushMove c id resetTime answer c') :
    ¬Orphaned c'.toMembers ↔ Rejoins c (.flush id resetTime answer) := by
  cases hm with
  | notAttached hid =>
      apply iff_of_true hp
      match answer with
      | none | some false => trivial
      | some true =>
          rintro ⟨-, -, source, hsource⟩
          simp [hid] at hsource
  | refused hid => exact iff_of_true hp trivial
  | kept hid =>
      have hsame := orphaned_modify_iff c.toMembers id
        (f := ({ · with isFlushing := true })) fun _ ↦ rfl
      exact iff_of_true (mt hsame.mp hp) trivial
  | @lost source hid clientState hstate =>
      rcases hstate with ⟨hc, rfl⟩ | ⟨hc, rfl⟩ | ⟨hplaying, hpaused, rfl⟩
      · exact iff_of_true (not_orphaned (by simp) (by simp)) fun h ↦ by simp [hc] at h
      · exact iff_of_true (not_orphaned (by simp) (by simp)) fun h ↦ by simp [hc] at h
      · set c₁ : Client := {
          ({ c with wasPlayingBeforeEos := false }.send (.flush id resetTime)) with
          attachedSources := Table.modify id ({ · with isFlushing := true }) c.attachedSources }
        have hid₁ : c₁.attachedSources.lookup id = some { source with isFlushing := true } := by
          simp [c₁, hid]
        have hothers : OthersIn c₁.toMembers id [.awaitingPaused] ↔
            OthersIn c.toMembers id [.awaitingPaused] := by
          refine forall₂_congr fun j other ↦ imp_congr_right fun hj ↦ ?_
          simp [c₁, hj]
        refine not_congr ⟨?_, ?_⟩
        · rintro (hw | hw)
          · obtain ⟨hready, -, hin⟩ := (waitsToPause_setState_iff hid₁).mp hw
            exact ⟨hready, hothers.mp hin, source, hid⟩
          · exact absurd hw.1 hpaused
        · rintro ⟨hready, hin, -⟩
          exact .inl ((waitsToPause_setState_iff hid₁).mpr ⟨hready, rfl, hothers.mpr hin⟩)

theorem serverAhead_handshake {c c' : Client} (h : ServerAhead c) (hm : HandshakeMove c c') :
    ServerAhead c' := by
  cases hm with
  | silent => exact h
  | send => exact ⟨h.noEos, fun hpaused ↦ by cases hpaused⟩
  | sendAndPause => exact ⟨h.noEos, fun hpaused ↦ by cases hpaused⟩

theorem not_orphaned_handshake {c c' : Client} (hp : ¬Orphaned c.toMembers)
    (hm : HandshakeMove c c') : ¬Orphaned c'.toMembers := by
  cases hm with
  | silent => exact hp
  | send hsent hattached hnot =>
      rintro (hw | hw)
      · exact hnot hw.2.2
      · cases hw.1
  | sendAndPause => exact not_orphaned (by simp) (by simp)

theorem serverAhead_attach {c c' : Client} {id : SourceId} {type : MediaSourceType}
    (h : ServerAhead c) (hm : AttachMove c id type c') : ServerAhead c' := by
  cases hm with
  | invalid => exact h
  | known hhand => exact serverAhead_handshake (c := c.send _) ⟨h.noEos, h.noWaiter⟩ hhand
  | new hid hhand =>
      refine serverAhead_handshake
        (c := { c.send _ with attachedSources := c.attachedSources.insert id { type := type } })
        ⟨h.noEos, fun hpaused hplaying j source hj ↦ ?_⟩ hhand
      rw [Table.lookup_insert] at hj
      split at hj
      · cases hj
        simp
      · exact h.noWaiter hpaused hplaying j source hj

theorem not_orphaned_attach {c c' : Client} {id : SourceId} {type : MediaSourceType}
    (hp : ¬Orphaned c.toMembers) (hm : AttachMove c id type c') : ¬Orphaned c'.toMembers := by
  cases hm with
  | invalid => exact hp
  | known hhand => exact not_orphaned_handshake (c := c.send _) hp hhand
  | new hid hhand =>
      refine not_orphaned_handshake ?_ hhand
      have hnew : ∀ states, ClientState.ready ∉ states →
          ¬AllIn { c.toMembers with
            attachedSources := c.attachedSources.insert id { type := type } } states :=
        fun states hnot hall ↦ hnot (hall id { type := type } (by simp))
      rintro (hw | hw)
      · exact hnew _ (by simp) hw.2.2
      · exact hnew _ (by simp) hw.2.2

theorem orphaned_remove_iff (c : Client) (id : SourceId) :
    ¬Orphaned (c.removeSource id).toMembers ↔ Rejoins c (.removeSource id) := by
  have hlookup : ∀ j source, (c.removeSource id).attachedSources.lookup j = some source ↔
      j ≠ id ∧ c.attachedSources.lookup j = some source := by
    intro j source
    simp only [Client.removeSource, Client.send_toMembers, Table.lookup_erase]
    by_cases hj : j = id <;> simp [hj]
  have hall : ∀ states, AllIn (c.removeSource id).toMembers states ↔
      OthersIn c.toMembers id states := by
    intro states
    simp only [AllIn, OthersIn, hlookup, and_imp]
  have hstate : (c.removeSource id).clientState = c.clientState := rfl
  refine not_or.trans (and_congr (not_congr ?_) (not_congr ?_))
  · simp only [WaitsToPause, hall, hlookup, hstate]
    tauto
  · simp only [WaitsToPlay, OtherAwaitsPlaying, hall, hlookup, hstate, and_assoc]
    tauto

/-! ## The notifications -/

/-- A `play` that reaches its test looks at all the sources. -/
theorem not_orphaned_of_test {c c' : Client} {id : SourceId} {async : Bool}
    {r : StateChangeResult} {source : AttachedSource}
    (hid : c.attachedSources.lookup id = some source) (hs : c.isServerPlaying = false)
    (hm : PlayMove c id async c' r) : ¬Orphaned c'.toMembers := by
  cases hm with
  | notAttached hnone => simp [hid] at hnone
  | alreadyPlaying _ hs' | allPlaying _ hs' => simp [hs] at hs'
  | send => exact not_orphaned (by simp) (by simp)
  | wait _ _ hnot =>
      rintro (hw | hw)
      · simp [waitsToPause_setState_iff hid] at hw
      · exact hnot hw.1 hw.2.2

theorem orphaned_tellSource_iff {c : Client} {id : SourceId} {source : AttachedSource}
    (hid : c.attachedSources.lookup id = some source) :
    Orphaned (c.tellSource id .paused).toMembers ↔ WaitsToPlay c.toMembers := by
  have htold : ∀ source state, state ≠ .paused → state ≠ .awaitingPaused →
      ((Client.stateAfter .paused source).state = state ↔ source.state = state) := by
    intro source state hpaused hawaiting
    rw [Client.stateAfter_paused_state]
    split
    · next h => rw [h]; exact iff_of_false hpaused.symm hawaiting.symm
    · exact Iff.rfl
  have hplay : WaitsToPlay (c.tellSource id .paused).toMembers ↔ WaitsToPlay c.toMembers :=
    waitsToPlay_modify_iff (fun source ↦ htold source _ (by simp) (by simp))
      fun source ↦ htold source _ (by simp) (by simp)
  refine ⟨fun h ↦ hplay.mp (h.resolve_left ?_), fun h ↦ .inr (hplay.mpr h)⟩
  rintro ⟨-, -, hall⟩
  have hlast := hall id _ (by rw [Client.lookup_tellSource, if_pos rfl, hid]; rfl)
  rw [List.mem_singleton, Client.stateAfter_paused_state] at hlast
  split at hlast
  · cases hlast
  · next hnot => exact hnot hlast

/-- A PAUSED notification leaves somebody waiting only where `play` was waited
for, and then only if the delegate does not ask again. -/
theorem orphaned_visit_iff {c c' : Client} {visit : SourceId × Option Bool}
    {source : AttachedSource} (hserver : c.serverPlaybackState = .paused)
    (hid : c.attachedSources.lookup visit.1 = some source)
    (hm : VisitMove .paused c visit c') :
    Orphaned c'.toMembers ↔ WaitsToPlay c.toMembers ∧ visit.2 = none := by
  cases hm with
  | silent hsilent => simpa [hsilent rfl] using orphaned_tellSource_iff hid
  | play hpaused hasked hplay =>
      refine iff_of_false ?_ (by simp [hasked])
      have hid' : (c.tellSource visit.1 .paused).attachedSources.lookup visit.1 =
          some (Client.stateAfter .paused source) := by
        simp [Client.lookup_tellSource, hid]
      refine not_orphaned_of_test hid' ?_ hplay
      simp [Members.isServerPlaying, Client.tellSource, hserver]

theorem orphaned_visits_iff {c : Client} (hserver : c.serverPlaybackState = .paused)
    (hwait : ¬WaitsToPause c.toMembers) (visits : List (SourceId × Option Bool))
    (hvisits : ∀ visit ∈ visits, (c.attachedSources.lookup visit.1).isSome = true) :
    Orphaned (visits.foldl (Client.notifySource .paused) c).toMembers ↔
      WaitsToPlay c.toMembers ∧ ∀ visit ∈ visits, visit.2 = none := by
  induction visits generalizing c with
  | nil => simp [Orphaned, hwait]
  | cons visit visits ih =>
      obtain ⟨source, hid⟩ := Option.isSome_iff_exists.mp (hvisits visit List.mem_cons_self)
      have hm := notifySource_move .paused c visit
      obtain ⟨hserver', hsome⟩ := hm.frame
      have hiff := orphaned_visit_iff hserver hid hm
      -- whoever is orphaned by the visit waits to play, for PAUSED is settled
      have hwait' : ¬WaitsToPause (Client.notifySource .paused c visit).toMembers := by
        intro hw
        obtain ⟨hplay, hnone⟩ := hiff.mp (.inl hw)
        have hready : c.clientState = .ready := by
          simpa [Client.notifySource, hnone, Client.tellSource] using hw.1
        rw [hplay.1] at hready
        cases hready
      have hvisits' : ∀ v ∈ visits,
          ((Client.notifySource .paused c visit).attachedSources.lookup v.1).isSome = true :=
        fun v hv ↦ (hsome v.1).trans (hvisits v (List.mem_cons_of_mem _ hv))
      have hplay : WaitsToPlay (Client.notifySource .paused c visit).toMembers ↔
          WaitsToPlay c.toMembers ∧ visit.2 = none := by
        rw [← hiff, Orphaned, or_iff_right hwait']
      rw [List.foldl_cons, ih (hserver'.trans hserver) hwait' hvisits', hplay]
      simp [and_assoc]

theorem visits_playing {c : Client} (visits : List (SourceId × Option Bool)) :
    (visits.foldl (Client.notifySource .playing) c).clientState = c.clientState ∧
      (visits.foldl (Client.notifySource .playing) c).serverPlaybackState =
        c.serverPlaybackState ∧
      ∀ j, (visits.foldl (Client.notifySource .playing) c).attachedSources.lookup j =
        if j ∈ visits.map Prod.fst then
          (c.attachedSources.lookup j).map (Client.stateAfter .playing)
        else c.attachedSources.lookup j := by
  induction visits generalizing c with
  | nil => simp
  | cons visit visits ih =>
      have hvisit : Client.notifySource .playing c visit = c.tellSource visit.1 .playing := rfl
      have hagain : ∀ source, Client.stateAfter .playing (Client.stateAfter .playing source) =
          Client.stateAfter .playing source := by
        intro source
        by_cases h : source.state = .awaitingPlaying <;> simp [Client.stateAfter, h]
      obtain ⟨hclient, hserver, hlookup⟩ := ih (c := c.tellSource visit.1 .playing)
      rw [List.foldl_cons, hvisit]
      refine ⟨hclient, hserver, fun j ↦ ?_⟩
      rw [hlookup, Client.lookup_tellSource]
      by_cases hj : j = visit.1 <;> by_cases hin : j ∈ visits.map Prod.fst <;>
        simp [hj, hin, hagain, Function.comp_def]

theorem mem_visits_iff {c : Client} {visits : List (SourceId × Option Bool)}
    (hperm : (visits.map Prod.fst).Perm c.attachedSources.keys) {j : SourceId} :
    j ∈ visits.map Prod.fst ↔ (c.attachedSources.lookup j).isSome = true := by
  rw [hperm.mem_iff, Table.mem_keys_iff, Option.isSome_iff_exists]

theorem serverAhead_notify {c : Client} {state : PlaybackState}
    {visits : List (SourceId × Option Bool)}
    (hperm : (visits.map Prod.fst).Perm c.attachedSources.keys)
    (hstate : state = .playing ∨ state = .paused) :
    ServerAhead (c.handlePlaybackStateChange state visits) := by
  rcases hstate with rfl | rfl
  · simp only [Client.handlePlaybackStateChange]
    split
    · next hawaiting => exact ⟨by simp, fun hpaused ↦ by simp [hawaiting] at hpaused⟩
    · set c0 : Client := if c.clientState = .awaitingPlaying then _ else _ with hc0
      obtain ⟨-, hserver, hlookup⟩ := visits_playing visits (c := c0)
      have hsources : c0.attachedSources = c.attachedSources := by
        rw [hc0]
        split <;> rfl
      have hplaying : c0.serverPlaybackState = .playing := by
        rw [hc0]
        split <;> rfl
      refine ⟨by simp [hserver, hplaying], fun _ _ j source hj hwaits ↦ ?_⟩
      rw [hlookup, hsources] at hj
      split at hj
      · obtain ⟨source', -, rfl⟩ := Option.map_eq_some_iff.mp hj
        rw [Client.stateAfter_playing_state] at hwaits
        split at hwaits <;> simp_all
      · next hnot => simp [mem_visits_iff hperm, hj] at hnot
  · have hserver := notify_serverPlaybackState c .paused visits
    exact ⟨by simp [hserver], fun _ hplaying ↦ by simp [hserver] at hplaying⟩

theorem not_orphaned_playing {c : Client} {visits : List (SourceId × Option Bool)}
    (hp : ¬Orphaned c.toMembers)
    (hperm : (visits.map Prod.fst).Perm c.attachedSources.keys) :
    ¬Orphaned (c.handlePlaybackStateChange .playing visits).toMembers := by
  simp only [Client.handlePlaybackStateChange]
  split
  · next hawaiting => exact not_orphaned (by simp [hawaiting]) (by simp [hawaiting])
  · set c0 : Client := if c.clientState = .awaitingPlaying then _ else _ with hc0
    obtain ⟨hclient, -, hlookup⟩ := visits_playing visits (c := c0)
    have hsources : c0.attachedSources = c.attachedSources := by
      rw [hc0]
      split <;> rfl
    have hstate := Client.stateAfter_playing_state
    have hlookup' : ∀ j, (visits.foldl (Client.notifySource .playing) c0).attachedSources.lookup j =
        (c.attachedSources.lookup j).map (Client.stateAfter .playing) := by
      intro j
      rw [hlookup, hsources]
      split
      · rfl
      · next hnot =>
          have hnone : c.attachedSources.lookup j = none := by
            simpa [mem_visits_iff hperm] using hnot
          simp [hnone]
    rintro (⟨hready, ⟨j, source, hj⟩, hall⟩ | ⟨-, ⟨j, source, hj, hwaits⟩, -⟩)
    · refine hp (.inl ⟨?_, ?_, fun k other hk ↦ ?_⟩)
      · rw [hclient, hc0] at hready
        split at hready
        · cases hready
        · exact hready
      · obtain ⟨source', hj', -⟩ := Option.map_eq_some_iff.mp ((hlookup' j).symm.trans hj)
        exact ⟨j, source', hj'⟩
      · have := hall k _ (by rw [hlookup', hk]; rfl)
        rw [List.mem_singleton, hstate] at this
        split at this <;> simp_all
    · obtain ⟨source', hj', rfl⟩ := Option.map_eq_some_iff.mp ((hlookup' j).symm.trans hj)
      rw [hstate] at hwaits
      split at hwaits <;> simp_all

theorem orphaned_paused_iff {c : Client} {visits : List (SourceId × Option Bool)}
    (hp : ¬Orphaned c.toMembers)
    (hperm : (visits.map Prod.fst).Perm c.attachedSources.keys) :
    ¬Orphaned (c.handlePlaybackStateChange .paused visits).toMembers ↔
      Rejoins c (.handlePlaybackStateChange .paused visits) := by
  simp only [Client.handlePlaybackStateChange]
  have hvisits : ∀ visit ∈ visits, (c.attachedSources.lookup visit.1).isSome = true :=
    fun visit hvisit ↦ (mem_visits_iff hperm).mp (List.mem_map_of_mem hvisit)
  split
  · next hawaiting =>
      refine (not_congr (orphaned_visits_iff ?_ ?_ visits ?_)).trans ?_
      · rfl
      · exact fun hw ↦ by cases hw.1
      · exact hvisits
      · simp only [WaitsToPlay, Rejoins, hawaiting, true_and]
        exact not_congr (and_assoc.trans and_left_comm)
  · next hnot =>
      refine (not_congr (orphaned_visits_iff ?_ ?_ visits ?_)).trans ?_
      · rfl
      · exact fun hw ↦ hp (.inl hw)
      · exact hvisits
      · exact iff_of_true (fun h ↦ hp (.inr h.1)) fun h ↦ hnot h.1

theorem rejoins_step {c c' : Client} {e : Event} (h : ServerAhead c)
    (hp : ¬Orphaned c.toMembers) (hstep : playbackMachine.step c e = some c') :
    ServerAhead c' ∧ (¬Orphaned c'.toMembers ↔ Rejoins c e) := by
  obtain ⟨hplayback, hstep⟩ := machine.restrict_step_eq_some_iff.mp hstep
  cases e with
  | attachSource id type result =>
      cases hstep
      have hm := attachSource_move c id type result
      exact ⟨serverAhead_attach h hm, iff_of_true (not_orphaned_attach hp hm) trivial⟩
  | removeSource id =>
      cases hstep
      refine ⟨⟨h.noEos, fun hpaused hplaying j source hj ↦ ?_⟩, orphaned_remove_iff c id⟩
      simp only [Client.removeSource, Table.lookup_erase] at hj
      split at hj
      · cases hj
      · exact h.noWaiter hpaused hplaying j source hj
  | handleStreamCollection a v s =>
      cases hstep
      exact ⟨⟨h.noEos, h.noWaiter⟩, iff_of_true hp trivial⟩
  | sendAllSourcesAttachedIfPossible =>
      cases hstep
      have hm := handshake_move c
      exact ⟨serverAhead_handshake h hm, iff_of_true (not_orphaned_handshake hp hm) trivial⟩
  | play id async =>
      cases hstep
      have hm := play_move c id async
      exact ⟨serverAhead_play h hm, iff_of_true (not_orphaned_play h hm hp) trivial⟩
  | pause id =>
      cases hstep
      have hm := pause_move c id
      exact ⟨serverAhead_pause h hm, iff_of_true (not_orphaned_pause hm hp) trivial⟩
  | flush id resetTime answer =>
      cases hstep
      have hm := flush_move c id resetTime answer
      exact ⟨serverAhead_flush h hm, orphaned_flush_iff hp hm⟩
  | handlePlaybackStateChange state visits =>
      have hstate : state = .playing ∨ state = .paused := by
        simpa [Event.isPlayback] using hplayback
      simp only [machine, Client.step] at hstep
      split at hstep
      · next hperm =>
          cases hstep
          refine ⟨serverAhead_notify hperm hstate, ?_⟩
          rcases hstate with rfl | rfl
          · exact iff_of_true (not_orphaned_playing hp hperm) trivial
          · exact orphaned_paused_iff hp hperm
      · cases hstep
  | handleSourceFlushed id =>
      cases hstep
      refine ⟨h.modify id fun _ _ hwaits ↦ hwaits, iff_of_true ?_ trivial⟩
      have hsame := orphaned_modify_iff c.toMembers id
        (f := ({ · with isFlushing := false })) fun _ ↦ rfl
      exact mt hsame.mp hp

/-- Nobody is left waiting in a run exactly if no step of it leaves the others behind. -/
theorem always_not_orphaned_iff {es : List Event} {c : Client}
    (hrun : playbackMachine.run {} es = some c) :
    playbackMachine.Always (fun c ↦ ¬Orphaned c.toMembers) {} es ↔
      playbackMachine.Meets Rejoins {} es := by
  refine playbackMachine.always_iff_meets (J := ServerAhead)
    (fun c e c' h hp _ hstep ↦ (rejoins_step h hp hstep).1)
    (fun c e c' h hp hstep ↦ (rejoins_step h hp hstep).2) ⟨by simp, by simp⟩ ?_ hrun
  exact not_orphaned (by simp) (by simp)

/-- The audio source leaves while the video source waits for it to pause. -/
def removeWaiting : List Event :=
  [.handleStreamCollection 1 1 0, .attachSource 1 .video true, .attachSource 2 .audio true,
    .pause 1, .removeSource 2]

theorem removeWaiting_run :
    ∃ c, playbackMachine.run {} removeWaiting = some c ∧ Orphaned c.toMembers := by
  obtain ⟨c, hc⟩ : ∃ c, playbackMachine.run {} removeWaiting = some c :=
    Option.isSome_iff_exists.mp (by decide)
  have hend : (playbackMachine.run {} removeWaiting).map (fun c ↦
      (c.clientState, (c.attachedSources.lookup 1).map AttachedSource.state,
        c.checkIfAllAttachedSourcesInStates [.awaitingPaused])) =
      some (.ready, some .awaitingPaused, true) := by decide
  rw [hc] at hend
  simp only [Option.map_some, Option.some.injEq, Prod.mk.injEq] at hend
  obtain ⟨hready, hsource, hall⟩ := hend
  obtain ⟨source, hsource, -⟩ := Option.map_eq_some_iff.mp hsource
  exact ⟨c, hc, .inl ⟨hready, ⟨1, source, hsource⟩, checkIfAll_eq_true_iff.mp hall⟩⟩

theorem always_not_orphaned_iff_removeWaiting :
    ¬playbackMachine.Meets Rejoins {} removeWaiting := by
  intro hmeets
  obtain ⟨c, hc, horphaned⟩ := removeWaiting_run
  exact ((always_not_orphaned_iff hc).mpr hmeets).last playbackMachine hc horphaned

theorem orphaned_reachable : ¬∀ (es : List Event) (c : Client),
    playbackMachine.run {} es = some c → ¬Orphaned c.toMembers := by
  intro h
  obtain ⟨c, hc, horphaned⟩ := removeWaiting_run
  exact h removeWaiting c hc horphaned

end RialtoGStreamer.MediaPlayerClient
