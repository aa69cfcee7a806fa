import RialtoGStreamer.MediaPlayerClient.Moves

/-!
# The order of the commands

Before `allSourcesAttached` the client is idle and silent; the command is sent
once, and only then can PLAYING and PAUSED be reached. What keeps the client
idle is the server: it does not notify PLAYING or PAUSED before it was asked,
so the shortcuts of `play` and `pause` stay closed until the handshake.
-/

namespace RialtoGStreamer.MediaPlayerClient

open Library

/-- The client has asked the server to play or to pause. -/
def Asked (c : Client) : Prop :=
  .play ∈ c.sent.map Prod.fst ∨ .pause ∈ c.sent.map Prod.fst

/-- The server notifies PLAYING and PAUSED only after it was asked. -/
def Answers (c : Client) : Event → Prop
  | .handlePlaybackStateChange state _ => state = .playing ∨ state = .paused → Asked c
  | _ => True

instance (c : Client) : Decidable (Asked c) :=
  inferInstanceAs (Decidable (_ ∨ _))

instance (c : Client) : (e : Event) → Decidable (Answers c e)
  | .handlePlaybackStateChange state _ =>
      inferInstanceAs (Decidable (state = .playing ∨ state = .paused → Asked c))
  | .attachSource _ _ _ | .removeSource _ | .handleStreamCollection _ _ _
  | .sendAllSourcesAttachedIfPossible | .play _ _ | .pause _ | .flush _ _ _
  | .handleSourceFlushed _ => instDecidableTrue

/-- Neither the handshake nor a request to play or pause. -/
@[simp] def Command.isQuiet : Command → Bool
  | .allSourcesAttached | .play | .pause => false
  | .attachSource _ _ | .removeSource _ | .flush _ _ => true

/-- What may be sent after the handshake: a `play` needs the client in PAUSED
and every attached source asking for it. -/
def Legal (x : Command × Members) : Prop :=
  x.1 ≠ .allSourcesAttached ∧
    (x.1 = .play → x.2.clientState = .paused ∧ AllIn x.2 [.awaitingPlaying, .playing])

/-- The handshake is in the log, once, with only quiet commands before it. -/
def Opened (sent : List (Command × Members)) : Prop :=
  ∃ pre m post, sent = pre ++ (.allSourcesAttached, m) :: post ∧ (∀ x ∈ pre, x.1.isQuiet = true) ∧
    m.areAllStreamsAttached = true ∧ ∀ x ∈ post, Legal x

theorem Opened.snoc {sent : List (Command × Members)} (h : Opened sent)
    {x : Command × Members} (hx : Legal x) : Opened (sent ++ [x]) := by
  obtain ⟨pre, m, post, rfl, hpre, hm, hpost⟩ := h
  refine ⟨pre, m, post ++ [x], by simp, hpre, hm, fun y hy ↦ ?_⟩
  rcases List.mem_append.mp hy with hy | hy
  · exact hpost y hy
  · rwa [List.mem_singleton.mp hy]

theorem legal_of_isQuiet {x : Command × Members} (h : x.1.isQuiet = true) : Legal x := by
  refine ⟨fun heq ↦ ?_, fun heq ↦ ?_⟩ <;> simp [heq] at h

theorem legal_pause (m : Members) : Legal (.pause, m) := by simp [Legal]

/-- The client before and after its handshake with the server. -/
inductive Handshake (c : Client) : Prop
  | before (hsent : c.wasAllSourcesAttachedSent = false) (hidle : c.clientState = .idle)
      (hplaying : c.serverPlaybackState ≠ .playing) (hpaused : c.serverPlaybackState ≠ .paused)
      (heos : c.wasPlayingBeforeEos = false) (hquiet : ∀ x ∈ c.sent, x.1.isQuiet = true)
  | after (hsent : c.wasAllSourcesAttachedSent = true) (hidle : c.clientState ≠ .idle)
      (hopened : Opened c.sent)

theorem Handshake.setSources {c : Client} (h : Handshake c)
    (sources : Table SourceId AttachedSource) :
    Handshake { c with attachedSources := sources } := by
  cases h with
  | before hdue hidle hnoPlay hnoPause hnoEos hquiet =>
      exact .before hdue hidle hnoPlay hnoPause hnoEos hquiet
  | after hdone hstarted hopened => exact .after hdone hstarted hopened

theorem Handshake.send {c : Client} (h : Handshake c) (command : Command)
    (hquiet : command.isQuiet = true) : Handshake (c.send command) := by
  cases h with
  | before hdue hidle hnoPlay hnoPause hnoEos hquiet =>
      refine .before hdue hidle hnoPlay hnoPause hnoEos fun x hx ↦ ?_
      rcases List.mem_append.mp hx with hx | hx
      · exact hquiet x hx
      · rwa [List.mem_singleton.mp hx]
  | after hdone hstarted hopened =>
      exact .after hdone hstarted (hopened.snoc (legal_of_isQuiet hquiet))

theorem Handshake.resetEos {c : Client} (h : Handshake c) :
    Handshake { c with wasPlayingBeforeEos := false } := by
  cases h with
  | before hdue hidle hnoPlay hnoPause hnoEos hquiet =>
      exact .before hdue hidle hnoPlay hnoPause rfl hquiet
  | after hdone hstarted hopened => exact .after hdone hstarted hopened

theorem handshake_play {c c' : Client} {id : SourceId} {async : Bool} {r : StateChangeResult}
    (h : Handshake c) (hm : PlayMove c id async c' r) : Handshake c' := by
  cases h with
  | before hdue hidle hnoPlay hnoPause hnoEos hquiet =>
      have hs : c.isServerPlaying = false := by simp [Members.isServerPlaying, hnoPlay, hnoEos]
      cases hm with
      | notAttached => exact .before hdue hidle hnoPlay hnoPause hnoEos hquiet
      | alreadyPlaying hid hs' | allPlaying hid hs' => simp [hs] at hs'
      | send hid hs' hp => simp [hidle] at hp
      | wait => exact .before hdue hidle hnoPlay hnoPause hnoEos hquiet
  | after hdone hstarted hopened =>
      cases hm with
      | notAttached | alreadyPlaying | wait => exact .after hdone hstarted hopened
      | allPlaying => exact .after hdone (by simp) hopened
      | send hid hs hpaused hall =>
          exact .after hdone (by simp) (hopened.snoc ⟨by simp, fun _ ↦ ⟨hpaused, hall⟩⟩)

theorem handshake_pause {c c' : Client} {id : SourceId} {r : StateChangeResult}
    (h : Handshake c) (hm : PauseMove c id c' r) : Handshake c' := by
  cases h with
  | before hdue hidle hnoPlay hnoPause hnoEos hquiet =>
      cases hm with
      | notAttached | wait => exact .before hdue hidle hnoPlay hnoPause hnoEos hquiet
      | alreadyPaused hid hs | allPaused hid hs => simp [Members.isServerPaused, hnoPause] at hs
      | sendFromReady hid hs hr => simp [hidle] at hr
      | sendFromPlaying hid hs hp => simp [hidle] at hp
  | after hdone hstarted hopened =>
      cases hm with
      | notAttached | alreadyPaused | wait => exact .after hdone hstarted hopened
      | allPaused => exact .after hdone (by simp) hopened
      | sendFromReady | sendFromPlaying =>
          exact .after hdone (by simp) (hopened.snoc (legal_pause _))

theorem handshake_flush {c c' : Client} {id : SourceId} {resetTime : Bool}
    {answer : Option Bool} (h : Handshake c) (hm : FlushMove c id resetTime answer c') :
    Handshake c' := by
  have hsend : Handshake ({ c with wasPlayingBeforeEos := false }.send (.flush id resetTime)) :=
    h.resetEos.send _ rfl
  cases hm with
  | notAttached => exact h.resetEos
  | refused => exact hsend
  | kept => exact hsend.setSources _
  | lost hid hstate =>
      cases hsend with
      | before hdue hidle hnoPlay hnoPause hnoEos hquiet =>
          refine .before hdue ?_ hnoPlay hnoPause hnoEos hquiet
          have hidle' : c.clientState = .idle := hidle
          simpa [hidle'] using hstate
      | after hdone hstarted hopened =>
          refine .after hdone ?_ hopened
          have hstarted' : c.clientState ≠ .idle := hstarted
          rcases hstate with ⟨-, rfl⟩ | ⟨-, rfl⟩ | ⟨-, -, rfl⟩
          · simp
          · simp
          · exact hstarted'

theorem handshake_handshake {c c' : Client} (h : Handshake c) (hm : HandshakeMove c c') :
    Handshake c' := by
  have hopened (hsent : c.wasAllSourcesAttachedSent = false)
      (hattached : c.areAllStreamsAttached = true) :
      Opened (c.sent ++ [(.allSourcesAttached, c.toMembers)]) := by
    cases h with
    | before hdue hidle hnoPlay hnoPause hnoEos hquiet =>
        exact ⟨c.sent, c.toMembers, [], rfl, hquiet, hattached, by simp⟩
    | after hdone => simp [hsent] at hdone
  cases hm with
  | silent => exact h
  | send hsent hattached hnot => exact .after rfl (by simp) (hopened hsent hattached)
  | sendAndPause hsent hattached hall =>
      exact .after rfl (by simp) ((hopened hsent hattached).snoc (legal_pause _))

theorem handshake_attach {c c' : Client} {id : SourceId} {type : MediaSourceType}
    (h : Handshake c) (hm : AttachMove c id type c') : Handshake c' := by
  have hsend : Handshake (c.send (.attachSource id type)) := h.send _ rfl
  cases hm with
  | invalid => exact h
  | known hhand => exact handshake_handshake hsend hhand
  | new hid hhand => exact handshake_handshake (hsend.setSources _) hhand

theorem handshake_visit {c c' : Client} {state : PlaybackState}
    {visit : SourceId × Option Bool} (h : Handshake c) (hm : VisitMove state c visit c') :
    Handshake c' := by
  cases hm with
  | silent => exact h.setSources _
  | play hpaused hasked hplay => exact handshake_play (h.setSources _) hplay

theorem handshake_visits {c : Client} (state : PlaybackState)
    (visits : List (SourceId × Option Bool)) (h : Handshake c) :
    Handshake (visits.foldl (Client.notifySource state) c) := by
  induction visits generalizing c with
  | nil => exact h
  | cons visit visits ih => exact ih (handshake_visit h (notifySource_move state c visit))

theorem not_asked_of_isQuiet {c : Client} (h : ∀ x ∈ c.sent, x.1.isQuiet = true) : ¬Asked c := by
  rintro (hmem | hmem)
  all_goals
    obtain ⟨x, hx, heq⟩ := List.mem_map.mp hmem
    have hquiet := h x hx
    simp [heq] at hquiet

theorem handshake_notify {c : Client} {state : PlaybackState}
    (visits : List (SourceId × Option Bool)) (h : Handshake c)
    (hasked : state = .playing ∨ state = .paused → Asked c) :
    Handshake (c.handlePlaybackStateChange state visits) := by
  cases h with
  | before hdue hidle hnoPlay hnoPause hnoEos hquiet =>
      have hnot : ¬(state = .playing ∨ state = .paused) :=
        fun hstate ↦ not_asked_of_isQuiet hquiet (hasked hstate)
      have hserver := notify_serverPlaybackState c state visits
      have hplaying := fun heq ↦ hnot (.inl (hserver.symm.trans heq))
      have hpaused := fun heq ↦ hnot (.inr (hserver.symm.trans heq))
      cases state with
      | playing | paused => simp at hnot
      | endOfStream =>
          simp only [Client.handlePlaybackStateChange, hnoPlay, and_false, if_false]
          exact .before hdue hidle (by simp) (by simp) hnoEos hquiet
      | failure => exact .before hdue hidle hplaying hpaused rfl hquiet
      | unknown | idle | seekDone | stopped =>
          exact .before hdue hidle hplaying hpaused hnoEos hquiet
  | after hdone hstarted hopened =>
      cases state with
      | paused =>
          apply handshake_visits .paused visits
          split
          · exact .after hdone (by simp) hopened
          · exact .after hdone hstarted hopened
      | playing =>
          simp only [Client.handlePlaybackStateChange]
          split
          · exact .after hdone hstarted hopened
          · apply handshake_visits .playing visits
            split
            · exact .after hdone (by simp) hopened
            · exact .after hdone hstarted hopened
      | endOfStream =>
          simp only [Client.handlePlaybackStateChange]
          split <;> exact .after hdone hstarted hopened
      | failure | unknown | idle | seekDone | stopped => exact .after hdone hstarted hopened

theorem handshake_step {c c' : Client} {e : Event} (h : Handshake c) (hanswers : Answers c e)
    (hstep : c.step e = some c') : Handshake c' := by
  cases e with
  | attachSource id type result =>
      cases hstep
      exact handshake_attach h (attachSource_move c id type result)
  | removeSource id =>
      cases hstep
      exact (h.send (.removeSource id) rfl).setSources _
  | handleStreamCollection a v s =>
      cases hstep
      cases h with
      | before hdue hidle hnoPlay hnoPause hnoEos hquiet =>
      exact .before hdue hidle hnoPlay hnoPause hnoEos hquiet
      | after hdone hstarted hopened => exact .after hdone hstarted hopened
  | sendAllSourcesAttachedIfPossible =>
      cases hstep
      exact handshake_handshake h (handshake_move c)
  | play id async =>
      cases hstep
      exact handshake_play h (play_move c id async)
  | pause id =>
      cases hstep
      exact handshake_pause h (pause_move c id)
  | flush id resetTime answer =>
      cases hstep
      exact handshake_flush h (flush_move c id resetTime answer)
  | handlePlaybackStateChange state visits =>
      simp only [Client.step] at hstep
      split at hstep
      · cases hstep
        exact handshake_notify visits h hanswers
      · cases hstep
  | handleSourceFlushed id =>
      cases hstep
      exact h.setSources _

/-- The commands of a run, each with the members at the moment it was sent. -/
structure CommandOrder (c : Client) : Prop where
  once : (c.sent.map Prod.fst).count .allSourcesAttached ≤ 1
  complete : ∀ m, (.allSourcesAttached, m) ∈ c.sent →
    m.attachedSourcesOf .video = m.videoStreams ∧ m.attachedSourcesOf .audio = m.audioStreams ∧
      m.attachedSourcesOf .subtitle = m.subtitleStreams
  afterHandshake : ∀ pre x post, c.sent = pre ++ x :: post → x.1 = .play ∨ x.1 = .pause →
    .allSourcesAttached ∈ pre.map Prod.fst
  playReady : ∀ m, (.play, m) ∈ c.sent → m.clientState = .paused ∧
    ∀ id source, m.attachedSources.lookup id = some source →
      source.state = .awaitingPlaying ∨ source.state = .playing
  started : c.clientState ≠ .idle → .allSourcesAttached ∈ c.sent.map Prod.fst

theorem ne_of_isQuiet {command : Command} (h : command.isQuiet = true) :
    command ≠ .allSourcesAttached ∧ command ≠ .play ∧ command ≠ .pause := by
  cases command <;> simp at h ⊢

theorem count_allSourcesAttached {sent : List (Command × Members)}
    (h : ∀ x ∈ sent, x.1 ≠ .allSourcesAttached) :
    (sent.map Prod.fst).count .allSourcesAttached = 0 := by
  apply List.count_eq_zero.mpr
  intro hin
  obtain ⟨x, hx, heq⟩ := List.mem_map.mp hin
  exact h x hx heq

theorem Opened.commandOrder {c : Client} (h : Opened c.sent) : CommandOrder c := by
  obtain ⟨pre, m, post, hsent, hpre, hm, hpost⟩ := h
  have hpre_ne x (hx : x ∈ pre) := ne_of_isQuiet (hpre x hx)
  have hmem : ∀ x ∈ c.sent, x ∈ pre ∨ x = (.allSourcesAttached, m) ∨ x ∈ post := by
    simp [hsent]
  refine ⟨?_, fun m' hm' ↦ ?_, fun pre' x post' hsplit hx ↦ ?_, fun m' hm' ↦ ?_, fun _ ↦ ?_⟩
  · have h0 := count_allSourcesAttached fun x hx ↦ (hpre_ne x hx).1
    have h1 := count_allSourcesAttached fun x hx ↦ (hpost x hx).1
    simp [hsent, h0, h1]
  · obtain rfl : m' = m := by
      rcases hmem _ hm' with hin | heq | hin
      · exact absurd rfl (hpre_ne _ hin).1
      · simpa using heq
      · exact absurd rfl (hpost _ hin).1
    simpa [Members.areAllStreamsAttached] using hm
  · rw [hsent] at hsplit
    rcases List.append_eq_append_iff.mp hsplit with ⟨mid, hpre', hrest⟩ | ⟨mid, hpre', hrest⟩
    · cases mid with
      | nil =>
          obtain ⟨rfl, -⟩ : (Command.allSourcesAttached, m) = x ∧ post = post' := by
            simpa using hrest
          simp at hx
      | cons y mid =>
          obtain ⟨rfl, -⟩ : (Command.allSourcesAttached, m) = y ∧ post = mid ++ x :: post' := by
            simpa using hrest
          simp [hpre']
    · cases mid with
      | nil =>
          obtain ⟨rfl, -⟩ : x = (Command.allSourcesAttached, m) ∧ post' = post := by
            simpa using hrest
          simp at hx
      | cons y mid =>
          obtain ⟨rfl, -⟩ : x = y ∧ post' = mid ++ (Command.allSourcesAttached, m) :: post := by
            simpa using hrest
          have hne := hpre_ne x (by simp [hpre'])
          exact absurd hx (by simp [hne])
  · rcases hmem _ hm' with hin | heq | hin
    · exact absurd rfl (hpre_ne _ hin).2.1
    · cases heq
    · simpa [AllIn] using (hpost _ hin).2 rfl
  · simp [hsent]

theorem Handshake.commandOrder {c : Client} (h : Handshake c) : CommandOrder c := by
  cases h with
  | after hsent hidle hopened => exact hopened.commandOrder
  | before hdue hidle hnoPlay hnoPause hnoEos hquiet =>
      have hne x (hx : x ∈ c.sent) := ne_of_isQuiet (hquiet x hx)
      refine ⟨?_, fun m hm ↦ ?_, fun pre x post hsplit hx ↦ ?_, fun m hm ↦ ?_, fun h ↦ ?_⟩
      · simp [count_allSourcesAttached fun x hx ↦ (hne x hx).1]
      · exact absurd rfl (hne _ hm).1
      · have hne := hne x (by simp [hsplit])
        exact absurd hx (by simp [hne])
      · exact absurd rfl (hne _ hm).2.1
      · exact absurd hidle h

/-- Whatever is called and notified, in any order. -/
theorem commandOrder_of_run {es : List Event} {c : Client}
    (hrun : (machine.restrict Answers).run {} es = some c) : CommandOrder c := by
  apply Handshake.commandOrder
  refine (machine.restrict Answers).invariant (I := Handshake) (fun c e c' h hstep ↦ ?_) ?_ hrun
  · obtain ⟨hanswers, hstep⟩ := machine.restrict_step_eq_some_iff.mp hstep
    exact handshake_step h hanswers hstep
  · exact .before rfl rfl (by simp) (by simp) rfl (by simp)

/-- One video source, brought to PLAYING. -/
def startVideo : List Event :=
  [.handleStreamCollection 0 1 0, .attachSource 1 .video true, .pause 1,
    .handlePlaybackStateChange .paused [(1, none)], .play 1 true]

theorem commandOrder_of_run_startVideo :
    ∃ c, (machine.restrict Answers).run {} startVideo = some c ∧
      c.sent.map Prod.fst = [.attachSource 1 .video, .allSourcesAttached, .pause, .play] ∧
      CommandOrder c := by
  obtain ⟨c, hc⟩ : ∃ c, (machine.restrict Answers).run {} startVideo = some c :=
    Option.isSome_iff_exists.mp (by decide)
  have hsent : ((machine.restrict Answers).run {} startVideo).map (fun c ↦ c.sent.map Prod.fst) =
      some [.attachSource 1 .video, .allSourcesAttached, .pause, .play] := by decide
  rw [hc] at hsent
  exact ⟨c, hc, by simpa using hsent, commandOrder_of_run hc⟩

end RialtoGStreamer.MediaPlayerClient
