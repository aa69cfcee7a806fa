import RialtoGStreamer.MediaPlayerClient.Moves

/-!
# The client and the server agree on the playback state

The server processes the commands in the order in which they were sent and
notifies once for each. What the client knows of it lags behind: the cached
state is the last notification, and the commands and notifications in flight,
read in their order, are what the client still has to learn. The client state
determines that list up to one choice, and this is the invariant.
-/

namespace RialtoGStreamer.MediaPlayerClient

open Library

/-- The state that a command asks the server for. -/
@[simp] def Command.target : Command → Option PlaybackState
  | .play => some .playing
  | .pause => some .paused
  | .attachSource _ _ | .removeSource _ | .allSourcesAttached | .flush _ _ => none

/-- The states that a list of commands asks for, one after another. -/
def targets (sent : List (Command × Members)) : List PlaybackState :=
  sent.filterMap fun x ↦ x.1.target

@[simp] theorem targets_append (sent sent' : List (Command × Members)) :
    targets (sent ++ sent') = targets sent ++ targets sent' :=
  List.filterMap_append

@[simp] theorem targets_nil : targets [] = [] := rfl

@[simp] theorem targets_cons (x : Command × Members)
    (sent : List (Command × Members)) :
    targets (x :: sent) = x.1.target.toList ++ targets sent := by
  unfold targets
  rw [List.filterMap_cons]
  cases x.1.target <;> rfl

/-- A client and its server. `commands` holds the targets of the commands the
server has not processed, `notifications` the states the client has not been
told of. A shortcut is recorded with what was outstanding when it was taken. -/
structure Session where
  client : Client := {}
  commands : List PlaybackState := []
  server : PlaybackState := .idle
  notifications : List PlaybackState := []
  shortcuts : List (PlaybackState × List PlaybackState) := []

namespace Session

/-- What the client has asked for and not been told of, the oldest first. -/
def outstanding (s : Session) : List PlaybackState :=
  s.notifications ++ s.commands

/-- The client after an operation; what it sent goes to the server. -/
def call (s : Session) (client : Client) : Session :=
  { s with
    client := client
    commands := s.commands ++ targets (client.sent.drop s.client.sent.length)
    shortcuts := s.shortcuts ++
      (client.shortcuts.drop s.client.shortcuts.length).map (·, s.outstanding) }

/-- The server processes its next command, and notifies. -/
def process (s : Session) : Option Session :=
  match s.commands with
  | [] => none
  | target :: commands => some { s with
      commands := commands
      server := target
      notifications := s.notifications ++ [target] }

/-- The next notification is handled. `visits` walks over the sources and tells
which of the delegates ask for PLAYING at once; `play` is asynchronous. -/
def deliver (s : Session) (visits : List (SourceId × Bool)) : Option Session :=
  match s.notifications with
  | [] => none
  | state :: notifications =>
    let visits := visits.map fun (id, asks) ↦ (id, if asks then some true else none)
    (s.client.step (.handlePlaybackStateChange state visits)).map
      { s with notifications := notifications }.call

end Session

inductive SessionEvent where
  | play (id : SourceId)
  | pause (id : SourceId)
  | attachSource (id : SourceId) (type : MediaSourceType) (result : Bool)
  | removeSource (id : SourceId)
  | handleStreamCollection (audioStreams videoStreams subtitleStreams : ℤ)
  | sendAllSourcesAttachedIfPossible
  | process
  | deliver (visits : List (SourceId × Bool))

def Session.step (s : Session) : SessionEvent → Option Session
  | .play id => (s.client.step (.play id true)).map s.call
  | .pause id => (s.client.step (.pause id)).map s.call
  | .attachSource id type result => (s.client.step (.attachSource id type result)).map s.call
  | .removeSource id => (s.client.step (.removeSource id)).map s.call
  | .handleStreamCollection audioStreams videoStreams subtitleStreams =>
      (s.client.step
        (.handleStreamCollection audioStreams videoStreams subtitleStreams)).map s.call
  | .sendAllSourcesAttachedIfPossible =>
      (s.client.step .sendAllSourcesAttachedIfPossible).map s.call
  | .process => s.process
  | .deliver visits => s.deliver visits

/-- A client and a server that is never flushed, never fails and never ends. -/
def session : Machine Session SessionEvent where
  step := Session.step

/-- With nothing in flight, PAUSED and PLAYING are the state of the server. -/
def Agrees (s : Session) : Prop :=
  s.commands = [] → s.notifications = [] →
    (s.client.clientState = .paused → s.server = .paused) ∧
      (s.client.clientState = .playing → s.server = .playing)

/-- The state that PLAYING and PAUSED exclude. -/
@[simp] def PlaybackState.opposite : PlaybackState → Option PlaybackState
  | .playing => some .paused
  | .paused => some .playing
  | _ => none

/-- No shortcut was taken while the opposite state was outstanding. -/
def ShortcutsSound (s : Session) : Prop :=
  ∀ x ∈ s.shortcuts, ∀ y ∈ x.2, x.1.opposite ≠ some y

/-- `play` is not called while a PAUSED is awaited from a server known to play. -/
def Guarded (s : Session) : SessionEvent → Prop
  | .play id =>
      ¬(s.client.clientState = .awaitingPaused ∧ s.client.serverPlaybackState = .playing ∧
        ∃ source, s.client.attachedSources.lookup id = some source)
  | _ => True

/-! ## What is outstanding, by the state of the client -/

inductive Phase (c : Client) (outstanding : List PlaybackState) : Prop
  | unstarted (hstate : c.clientState = .idle ∨ c.clientState = .ready)
      (hserver : c.serverPlaybackState = .idle) (hout : outstanding = [])
  | pausing (hstate : c.clientState = .awaitingPaused)
      (hserver : c.serverPlaybackState = .idle ∨ c.serverPlaybackState = .playing)
      (hout : outstanding = [.paused])
  | turning (hstate : c.clientState = .awaitingPaused)
      (hserver : c.serverPlaybackState = .paused) (hout : outstanding = [.playing, .paused])
  | paused (hstate : c.clientState = .paused)
      (hserver : c.serverPlaybackState = .paused) (hout : outstanding = [])
  | starting (hstate : c.clientState = .awaitingPlaying)
      (hserver : c.serverPlaybackState = .paused) (hout : outstanding = [.playing])
  | playing (hstate : c.clientState = .playing)
      (hserver : c.serverPlaybackState = .playing) (hout : outstanding = [])

/-- The phase, and the client idle until the handshake. -/
structure InPhase (c : Client) (outstanding : List PlaybackState) : Prop where
  phase : Phase c outstanding
  hand : c.wasAllSourcesAttachedSent = true ∨ c.clientState = .idle

/-- An operation that sends `sent` and takes a shortcut only with nothing outstanding. -/
def Extends (c c' : Client) (outstanding : List PlaybackState) : Prop :=
  ∃ sent shortcuts, c'.sent = c.sent ++ sent ∧ c'.shortcuts = c.shortcuts ++ shortcuts ∧
    (shortcuts = [] ∨ outstanding = []) ∧ InPhase c' (outstanding ++ targets sent)

theorem InPhase.congr {c c' : Client} {outstanding : List PlaybackState}
    (h : InPhase c outstanding) (hstate : c'.clientState = c.clientState)
    (hserver : c'.serverPlaybackState = c.serverPlaybackState)
    (hsent : c'.wasAllSourcesAttachedSent = c.wasAllSourcesAttachedSent) :
    InPhase c' outstanding := by
  obtain ⟨hphase, hhand⟩ := h
  refine ⟨?_, by rwa [hstate, hsent]⟩
  cases hphase with
  | unstarted h1 h2 h3 => exact .unstarted (hstate ▸ h1) (hserver.trans h2) h3
  | pausing h1 h2 h3 => exact .pausing (hstate.trans h1) (hserver ▸ h2) h3
  | turning h1 h2 h3 => exact .turning (hstate.trans h1) (hserver.trans h2) h3
  | paused h1 h2 h3 => exact .paused (hstate.trans h1) (hserver.trans h2) h3
  | starting h1 h2 h3 => exact .starting (hstate.trans h1) (hserver.trans h2) h3
  | playing h1 h2 h3 => exact .playing (hstate.trans h1) (hserver.trans h2) h3

/-- An operation that sends nothing of interest and keeps the client state. -/
theorem InPhase.extends {c c' : Client} {outstanding : List PlaybackState}
    (h : InPhase c outstanding) (hstate : c'.clientState = c.clientState)
    (hserver : c'.serverPlaybackState = c.serverPlaybackState)
    (hwas : c'.wasAllSourcesAttachedSent = c.wasAllSourcesAttachedSent)
    (hshortcuts : c'.shortcuts = c.shortcuts) {sent : List (Command × Members)}
    (hsent : c'.sent = c.sent ++ sent) (htargets : targets sent = []) :
    Extends c c' outstanding := by
  refine ⟨sent, [], hsent, by simp [hshortcuts], .inl rfl, ?_⟩
  rw [htargets, List.append_nil]
  exact h.congr hstate hserver hwas

theorem Phase.of_unstarted {c : Client} {outstanding : List PlaybackState}
    (h : Phase c outstanding) (hstate : c.clientState = .idle ∨ c.clientState = .ready) :
    c.serverPlaybackState = .idle ∧ outstanding = [] := by
  cases h with
  | unstarted _ hserver hout => exact ⟨hserver, hout⟩
  | pausing h | turning h | paused h | starting h | playing h => simp [h] at hstate

theorem Phase.of_paused {c : Client} {outstanding : List PlaybackState}
    (h : Phase c outstanding) (hstate : c.clientState = .paused) :
    c.serverPlaybackState = .paused ∧ outstanding = [] := by
  cases h with
  | paused _ hserver hout => exact ⟨hserver, hout⟩
  | unstarted h => rcases h with h | h <;> simp [h] at hstate
  | pausing h | turning h | starting h | playing h => simp [h] at hstate

theorem Phase.of_awaitingPlaying {c : Client} {outstanding : List PlaybackState}
    (h : Phase c outstanding) (hstate : c.clientState = .awaitingPlaying) :
    c.serverPlaybackState = .paused ∧ outstanding = [.playing] := by
  cases h with
  | starting _ hserver hout => exact ⟨hserver, hout⟩
  | unstarted h => rcases h with h | h <;> simp [h] at hstate
  | pausing h | turning h | paused h | playing h => simp [h] at hstate

theorem Phase.of_playing {c : Client} {outstanding : List PlaybackState}
    (h : Phase c outstanding) (hstate : c.clientState = .playing) :
    c.serverPlaybackState = .playing ∧ outstanding = [] := by
  cases h with
  | playing _ hserver hout => exact ⟨hserver, hout⟩
  | unstarted h => rcases h with h | h <;> simp [h] at hstate
  | pausing h | turning h | paused h | starting h => simp [h] at hstate

theorem Phase.of_isServerPlaying {c : Client} {outstanding : List PlaybackState}
    (h : Phase c outstanding) (hs : c.isServerPlaying = true) :
    c.serverPlaybackState = .playing ∧ (c.clientState = .awaitingPaused ∧ outstanding = [.paused] ∨
      c.clientState = .playing ∧ outstanding = []) := by
  simp only [Members.isServerPlaying, decide_eq_true_eq] at hs
  cases h with
  | unstarted _ hserver | turning _ hserver | paused _ hserver | starting _ hserver =>
      simp [hserver] at hs
  | pausing hstate hserver hout =>
      rcases hserver with hserver | hserver
      · simp [hserver] at hs
      · exact ⟨hserver, .inl ⟨hstate, hout⟩⟩
  | playing hstate hserver hout => exact ⟨hserver, .inr ⟨hstate, hout⟩⟩

theorem Phase.of_isServerPaused {c : Client} {outstanding : List PlaybackState}
    (h : Phase c outstanding) (hs : c.isServerPaused = true) :
    c.clientState = .paused ∧ outstanding = [] := by
  simp only [Members.isServerPaused, decide_eq_true_eq] at hs
  cases h with
  | unstarted _ hserver | playing _ hserver => simp [hserver] at hs
  | pausing hstate | turning hstate | starting hstate => simp [hstate] at hs
  | paused hstate _ hout => exact ⟨hstate, hout⟩

theorem extends_play {c c' : Client} {id : SourceId} {r : StateChangeResult}
    {outstanding : List PlaybackState} (h : InPhase c outstanding)
    (hguard : c.clientState = .awaitingPaused → c.serverPlaybackState = .playing →
      c.attachedSources.lookup id = none)
    (hm : PlayMove c id true c' r) : Extends c c' outstanding := by
  have hshortcut {source : AttachedSource} (hid : c.attachedSources.lookup id = some source)
      (hs : c.isServerPlaying = true) :
      c.serverPlaybackState = .playing ∧ c.clientState = .playing ∧ outstanding = [] := by
    obtain ⟨hserver, ⟨hstate, -⟩ | ⟨hstate, hout⟩⟩ := h.phase.of_isServerPlaying hs
    · simp [hguard hstate hserver] at hid
    · exact ⟨hserver, hstate, hout⟩
  cases hm with
  | notAttached => exact h.extends rfl rfl rfl rfl (List.append_nil _).symm rfl
  | alreadyPlaying hid hs =>
      obtain ⟨-, -, rfl⟩ := hshortcut hid hs
      exact ⟨[], [.playing], by simp, by simp, .inr rfl, h.congr rfl rfl rfl⟩
  | allPlaying hid hs =>
      obtain ⟨-, hstate, rfl⟩ := hshortcut hid hs
      exact ⟨[], [.playing], by simp, by simp, .inr rfl, h.congr hstate.symm rfl rfl⟩
  | send hid hs hpaused hall =>
      obtain ⟨hphase, hhand⟩ := h
      have hwas : c.wasAllSourcesAttachedSent = true := by simpa [hpaused] using hhand
      obtain ⟨hserver, rfl⟩ := hphase.of_paused hpaused
      exact ⟨[(.play, _)], [], rfl, by simp, .inl rfl, .starting rfl hserver (by simp),
        .inl hwas⟩
  | wait => exact h.extends rfl rfl rfl rfl (List.append_nil _).symm rfl

theorem extends_pause {c c' : Client} {id : SourceId} {r : StateChangeResult}
    {outstanding : List PlaybackState} (h : InPhase c outstanding)
    (hm : PauseMove c id c' r) : Extends c c' outstanding := by
  cases hm with
  | notAttached => exact h.extends rfl rfl rfl rfl (List.append_nil _).symm rfl
  | alreadyPaused hid hs =>
      obtain ⟨-, rfl⟩ := h.phase.of_isServerPaused hs
      exact ⟨[], [.paused], by simp, by simp, .inr rfl, h.congr rfl rfl rfl⟩
  | allPaused hid hs =>
      obtain ⟨hstate, rfl⟩ := h.phase.of_isServerPaused hs
      exact ⟨[], [.paused], by simp, by simp, .inr rfl, h.congr hstate.symm rfl rfl⟩
  | sendFromReady hid hs hready =>
      obtain ⟨hphase, hhand⟩ := h
      have hwas : c.wasAllSourcesAttachedSent = true := by simpa [hready] using hhand
      obtain ⟨hserver, rfl⟩ := hphase.of_unstarted (.inr hready)
      exact ⟨[(.pause, _)], [], rfl, by simp, .inl rfl, .pausing rfl (.inl hserver) (by simp),
        .inl hwas⟩
  | sendFromPlaying hid hs hplaying =>
      obtain ⟨hphase, hhand⟩ := h
      have hwas : c.wasAllSourcesAttachedSent = true := by
        rcases hplaying with hstate | hstate <;> simpa [hstate] using hhand
      refine ⟨[(.pause, _)], [], rfl, by simp, .inl rfl, ?_, .inl hwas⟩
      rcases hplaying with hstate | hstate
      · obtain ⟨hserver, rfl⟩ := hphase.of_awaitingPlaying hstate
        exact .turning rfl hserver (by simp)
      · obtain ⟨hserver, rfl⟩ := hphase.of_playing hstate
        exact .pausing rfl (.inr hserver) (by simp)
  | wait => exact h.extends rfl rfl rfl rfl (List.append_nil _).symm rfl

/-- With the handshake still due the client is idle, and nothing is outstanding. -/
theorem extends_handshake {c c' : Client} {outstanding : List PlaybackState}
    (h : InPhase c outstanding) (hm : HandshakeMove c c') : Extends c c' outstanding := by
  have hidle (hsent : c.wasAllSourcesAttachedSent = false) :
      c.serverPlaybackState = .idle ∧ outstanding = [] := by
    obtain ⟨hphase, hhand⟩ := h
    have hstate : c.clientState = .idle := by simpa [hsent] using hhand
    exact hphase.of_unstarted (.inl hstate)
  cases hm with
  | silent => exact h.extends rfl rfl rfl rfl (List.append_nil _).symm rfl
  | send hsent =>
      obtain ⟨hserver, rfl⟩ := hidle hsent
      exact ⟨[(.allSourcesAttached, _)], [], rfl, by simp, .inl rfl,
        .unstarted (.inr rfl) hserver (by simp), .inl rfl⟩
  | sendAndPause hsent =>
      obtain ⟨hserver, rfl⟩ := hidle hsent
      exact ⟨[(.allSourcesAttached, _), (.pause, _)], [], List.append_assoc _ _ _, by simp,
        .inl rfl, .pausing rfl (.inl hserver) (by simp), .inl rfl⟩

theorem Extends.trans_quiet {c c₁ c' : Client} {outstanding : List PlaybackState}
    {x : Command × Members} (h : Extends c₁ c' outstanding) (hsent : c₁.sent = c.sent ++ [x])
    (hx : x.1.target = none) (hshortcuts : c₁.shortcuts = c.shortcuts) :
    Extends c c' outstanding := by
  obtain ⟨sent, shortcuts, hs, hc, hnone, hphase⟩ := h
  refine ⟨x :: sent, shortcuts, by simp [hs, hsent], by simp [hc, hshortcuts], hnone, ?_⟩
  rw [targets_cons, hx]
  simpa using hphase

theorem extends_attach {c c' : Client} {id : SourceId} {type : MediaSourceType}
    {outstanding : List PlaybackState} (h : InPhase c outstanding)
    (hm : AttachMove c id type c') : Extends c c' outstanding := by
  cases hm with
  | invalid => exact h.extends rfl rfl rfl rfl (List.append_nil _).symm rfl
  | known hhand =>
      have hext := extends_handshake (c := c.send _) (h.congr rfl rfl rfl) hhand
      exact hext.trans_quiet rfl rfl rfl
  | new hid hhand =>
      have hext := extends_handshake
        (c := { c.send _ with attachedSources := c.attachedSources.insert id { type := type } })
        (h.congr rfl rfl rfl) hhand
      exact hext.trans_quiet rfl rfl rfl

/-! ## The notifications -/

theorem Extends.trans {c c₁ c₂ : Client} {outstanding : List PlaybackState}
    (h : Extends c c₁ outstanding)
    (hnext : ∀ outstanding', InPhase c₁ outstanding' → Extends c₁ c₂ outstanding') :
    Extends c c₂ outstanding := by
  obtain ⟨sent, shortcuts, hs, hc, hnone, hphase⟩ := h
  obtain ⟨sent', shortcuts', hs', hc', hnone', hphase'⟩ := hnext _ hphase
  refine ⟨sent ++ sent', shortcuts ++ shortcuts', by simp [hs', hs], by simp [hc', hc], ?_, ?_⟩
  · rcases hnone with rfl | hout
    · rcases hnone' with rfl | hout
      · exact .inl rfl
      · exact .inr (List.append_eq_nil_iff.mp hout).1
    · exact .inr hout
  · rwa [targets_append, ← List.append_assoc]

theorem extends_visit {c c' : Client} {state : PlaybackState} {visit : SourceId × Option Bool}
    {outstanding : List PlaybackState} (h : InPhase c outstanding)
    (hserver : state = .paused → c.serverPlaybackState = .paused)
    (hasync : visit.2 ≠ some false) (hm : VisitMove state c visit c') :
    Extends c c' outstanding := by
  cases hm with
  | silent => exact h.extends rfl rfl rfl rfl (List.append_nil _).symm rfl
  | @play async _ _ hpaused hasked hplay =>
      obtain rfl : async = true := by
        cases async
        · exact absurd hasked hasync
        · rfl
      have htold : InPhase (c.tellSource visit.1 .paused) outstanding := h.congr rfl rfl rfl
      have hguard : (c.tellSource visit.1 .paused).serverPlaybackState ≠ .playing := by
        have hpaused' : (c.tellSource visit.1 .paused).serverPlaybackState = .paused :=
          hserver hpaused
        simp [hpaused']
      have hext := extends_play htold (fun _ hplaying ↦ absurd hplaying hguard) hplay
      exact hext

theorem extends_visits {c : Client} {state : PlaybackState} {outstanding : List PlaybackState}
    (visits : List (SourceId × Option Bool)) (h : InPhase c outstanding)
    (hserver : state = .paused → c.serverPlaybackState = .paused)
    (hasync : ∀ visit ∈ visits, visit.2 ≠ some false) :
    Extends c (visits.foldl (Client.notifySource state) c) outstanding := by
  induction visits generalizing c outstanding with
  | nil => exact h.extends rfl rfl rfl rfl (List.append_nil _).symm rfl
  | cons visit visits ih =>
      have hm := notifySource_move state c visit
      apply (extends_visit h hserver (hasync visit List.mem_cons_self) hm).trans
      intro outstanding' h'
      apply ih h' (fun hpaused ↦ hm.frame.1.trans (hserver hpaused))
      exact fun v hv ↦ hasync v (List.mem_cons_of_mem _ hv)

theorem extends_notify {c : Client} {state : PlaybackState} {outstanding : List PlaybackState}
    (visits : List (SourceId × Option Bool)) (h : InPhase c (state :: outstanding))
    (hasync : ∀ visit ∈ visits, visit.2 ≠ some false) :
    Extends c (c.handlePlaybackStateChange state visits) outstanding := by
  obtain ⟨hphase, hhand⟩ := h
  cases hphase with
  | unstarted _ _ hout | paused _ _ hout | playing _ _ hout => cases hout
  | pausing hstate hserver hout =>
      obtain ⟨rfl, rfl⟩ := List.cons.inj hout
      have hwas : c.wasAllSourcesAttachedSent = true := by simpa [hstate] using hhand
      have hpaused : InPhase { c with
          serverPlaybackState := .paused
          wasPlayingBeforeEos := false
          clientState := .paused } [] := ⟨.paused rfl rfl rfl, .inl hwas⟩
      have hext := extends_visits visits hpaused
        (fun _ : PlaybackState.paused = .paused ↦ rfl) hasync
      simp only [Client.handlePlaybackStateChange, hstate, if_true]
      exact hext
  | turning hstate hserver hout =>
      obtain ⟨rfl, rfl⟩ := List.cons.inj hout
      have hwas : c.wasAllSourcesAttachedSent = true := by simpa [hstate] using hhand
      simp only [Client.handlePlaybackStateChange, hstate, if_true]
      exact ⟨[], [], by simp, by simp, .inl rfl, .pausing rfl (.inr rfl) (by simp), .inl hwas⟩
  | starting hstate hserver hout =>
      obtain ⟨rfl, rfl⟩ := List.cons.inj hout
      have hwas : c.wasAllSourcesAttachedSent = true := by simpa [hstate] using hhand
      have hplaying : InPhase { c with
          serverPlaybackState := .playing
          wasPlayingBeforeEos := false
          clientState := .playing } [] := ⟨.playing rfl rfl rfl, .inl hwas⟩
      have hext := extends_visits visits hplaying
        (fun h : PlaybackState.playing = .paused ↦ by cases h) hasync
      simp only [Client.handlePlaybackStateChange, hstate, reduceCtorEq, if_true, if_false]
      exact hext

/-! ## Runs -/

/-- What is outstanding, and the server in the state it notified last. -/
structure Synchronised (s : Session) : Prop where
  phase : InPhase s.client s.outstanding
  server : s.server = s.notifications.getLast?.getD s.client.serverPlaybackState

theorem Synchronised.agrees {s : Session} (h : Synchronised s) : Agrees s := by
  intro _ hnotifications
  have hserver : s.server = s.client.serverPlaybackState := by
    simpa [hnotifications] using h.server
  obtain ⟨⟨hphase, -⟩, -⟩ := h
  rw [hserver]
  exact ⟨fun hpaused ↦ (hphase.of_paused hpaused).1, fun hplaying ↦ (hphase.of_playing hplaying).1⟩

theorem call_outstanding {s : Session} {client : Client} {sent : List (Command × Members)}
    (hsent : client.sent = s.client.sent ++ sent) :
    (s.call client).outstanding = s.outstanding ++ targets sent := by
  simp [Session.outstanding, Session.call, hsent]

theorem call_shortcuts {s : Session} {client : Client} {shortcuts : List PlaybackState}
    (hshortcuts : client.shortcuts = s.client.shortcuts ++ shortcuts) :
    (s.call client).shortcuts = s.shortcuts ++ shortcuts.map (·, s.outstanding) := by
  simp [Session.call, hshortcuts]

theorem synchronised_call {s : Session} {client : Client}
    (hext : Extends s.client client s.outstanding) (hsound : ShortcutsSound s)
    (hserver : s.server = s.notifications.getLast?.getD client.serverPlaybackState) :
    Synchronised (s.call client) ∧ ShortcutsSound (s.call client) := by
  obtain ⟨sent, shortcuts, hs, hc, hnone, hphase⟩ := hext
  refine ⟨⟨?_, hserver⟩, ?_⟩
  · rw [call_outstanding hs]
    exact hphase
  · intro x hx y hy
    rw [call_shortcuts hc, List.mem_append] at hx
    rcases hx with hx | hx
    · exact hsound x hx y hy
    · obtain ⟨target, htarget, rfl⟩ := List.mem_map.mp hx
      rcases hnone with rfl | hout
      · cases htarget
      · simp [hout] at hy

theorem synchronised_process {s s' : Session} (h : Synchronised s) (hsound : ShortcutsSound s)
    (hstep : s.process = some s') : Synchronised s' ∧ ShortcutsSound s' := by
  simp only [Session.process] at hstep
  split at hstep
  · cases hstep
  · next target commands hcommands =>
      cases hstep
      refine ⟨⟨?_, by simp⟩, hsound⟩
      simpa [Session.outstanding, hcommands] using h.phase

theorem synchronised_deliver {s s' : Session} {visits : List (SourceId × Bool)}
    (h : Synchronised s) (hsound : ShortcutsSound s) (hstep : s.deliver visits = some s') :
    Synchronised s' ∧ ShortcutsSound s' := by
  simp only [Session.deliver] at hstep
  split at hstep
  · cases hstep
  · next state notifications hnotifications =>
      obtain ⟨client, hclient, rfl⟩ := Option.map_eq_some_iff.mp hstep
      simp only [Client.step] at hclient
      split at hclient
      · cases hclient
        refine synchronised_call ?_ hsound ?_
        · apply extends_notify _
          · simpa [Session.outstanding, hnotifications] using h.phase
          · intro visit hvisit
            obtain ⟨⟨id, asks⟩, -, rfl⟩ := List.mem_map.mp hvisit
            cases asks <;> simp
        · rw [notify_serverPlaybackState, h.server, hnotifications, List.getLast?_cons]
          simp
      · cases hclient

theorem guarded_step {s s' : Session} {e : SessionEvent} (h : Synchronised s)
    (hsound : ShortcutsSound s) (hguard : Guarded s e) (hstep : s.step e = some s') :
    Synchronised s' ∧ ShortcutsSound s' := by
  cases e with
  | play id =>
      cases hstep
      have hm := play_move s.client id true
      refine synchronised_call (extends_play h.phase (fun hstate hserver ↦ ?_) hm) hsound ?_
      · cases hid : s.client.attachedSources.lookup id with
        | none => rfl
        | some source => exact absurd ⟨hstate, hserver, source, hid⟩ hguard
      · rw [hm.frame.1, h.server]
  | pause id =>
      cases hstep
      have hm := pause_move s.client id
      apply synchronised_call (extends_pause h.phase hm) hsound
      rw [hm.serverPlaybackState, h.server]
  | attachSource id type result =>
      cases hstep
      have hm := attachSource_move s.client id type result
      apply synchronised_call (extends_attach h.phase hm) hsound
      rw [hm.serverPlaybackState, h.server]
  | removeSource id =>
      cases hstep
      exact synchronised_call (h.phase.extends rfl rfl rfl rfl rfl rfl) hsound h.server
  | handleStreamCollection a v sub =>
      cases hstep
      exact synchronised_call (h.phase.extends rfl rfl rfl rfl (List.append_nil _).symm rfl)
        hsound h.server
  | sendAllSourcesAttachedIfPossible =>
      cases hstep
      have hm := handshake_move s.client
      apply synchronised_call (extends_handshake h.phase hm) hsound
      rw [hm.serverPlaybackState, h.server]
  | process => exact synchronised_process h hsound hstep
  | deliver visits => exact synchronised_deliver h hsound hstep

theorem PlayMove.takes_shortcut {c c' : Client} {id : SourceId} {async : Bool}
    {r : StateChangeResult} {source : AttachedSource} (hm : PlayMove c id async c' r)
    (hid : c.attachedSources.lookup id = some source) (hs : c.isServerPlaying = true) :
    c'.shortcuts = c.shortcuts ++ [.playing] := by
  cases hm with
  | notAttached hnone => simp [hid] at hnone
  | alreadyPlaying | allPlaying => rfl
  | send _ hs' | wait _ hs' => simp [hs] at hs'

/-- The shortcut of `play` is taken with a PAUSED outstanding. -/
theorem not_shortcutsSound {s s' : Session} {e : SessionEvent} (h : Synchronised s)
    (hguard : ¬Guarded s e) (hstep : s.step e = some s') : ¬ShortcutsSound s' := by
  cases e with
  | play id =>
      obtain ⟨hstate, hserver, source, hid⟩ := Classical.not_not.mp hguard
      cases hstep
      have hs : s.client.isServerPlaying = true := by simp [Members.isServerPlaying, hserver]
      have hout : s.outstanding = [.paused] := by
        obtain ⟨-, ⟨-, hout⟩ | ⟨hplaying, -⟩⟩ := h.phase.phase.of_isServerPlaying hs
        · exact hout
        · simp [hstate] at hplaying
      have hshortcut := (play_move s.client id true).takes_shortcut hid hs
      intro hsound
      refine hsound (.playing, [.paused]) ?_ .paused (by simp) rfl
      rw [call_shortcuts hshortcut, hout]
      simp
  | pause | attachSource | removeSource | handleStreamCollection
  | sendAllSourcesAttachedIfPossible | process | deliver => exact absurd trivial hguard

/-- The client agrees with its server, and its shortcuts are sound, throughout
a run exactly if no `play` of the run meets a PAUSED awaited from a server
known to play. -/
theorem always_agrees_iff {es : List SessionEvent} {s : Session}
    (hrun : session.run {} es = some s) :
    session.Always (fun s ↦ Agrees s ∧ ShortcutsSound s) {} es ↔
      session.Meets Guarded {} es := by
  refine session.always_iff_meets (J := Synchronised)
    (fun s e s' h hp hguard hstep ↦ (guarded_step h hp.2 hguard hstep).1)
    (fun s e s' h hp hstep ↦ ⟨fun hp' ↦ ?_, fun hguard ↦ ?_⟩) ?_ ?_ hrun
  · by_contra hguard
    exact not_shortcutsSound h hguard hstep hp'.2
  · obtain ⟨h', hsound⟩ := guarded_step h hp.2 hguard hstep
    exact ⟨h'.agrees, hsound⟩
  · exact ⟨⟨.unstarted (.inl rfl) rfl rfl, .inr rfl⟩, rfl⟩
  · exact ⟨by simp [Agrees], by simp [ShortcutsSound]⟩

/-- `play` while the `pause` before it is outstanding and PLAYING has just been notified. -/
def playWhilePausing : List SessionEvent :=
  [.handleStreamCollection 0 1 0, .attachSource 1 .video true, .pause 1, .process,
    .deliver [(1, false)], .play 1, .pause 1, .process, .deliver [(1, false)], .play 1, .process,
    .deliver [(1, false)]]

/-- The client ends in PLAYING, the server in PAUSED, with nothing in flight. -/
theorem playWhilePausing_run : ∃ s, session.run {} playWhilePausing = some s ∧ ¬Agrees s := by
  obtain ⟨s, hs⟩ : ∃ s, session.run {} playWhilePausing = some s :=
    Option.isSome_iff_exists.mp (by decide)
  have hend : (session.run {} playWhilePausing).map
      (fun s ↦ (s.commands, s.notifications, s.client.clientState, s.server)) =
      some ([], [], .playing, .paused) := by decide
  rw [hs] at hend
  simp only [Option.map_some, Option.some.injEq, Prod.mk.injEq] at hend
  obtain ⟨hcommands, hnotifications, hstate, hserver⟩ := hend
  refine ⟨s, hs, fun hagrees ↦ ?_⟩
  have hplaying := (hagrees hcommands hnotifications).2 hstate
  rw [hserver] at hplaying
  cases hplaying

theorem always_agrees_iff_playWhilePausing : ¬session.Meets Guarded {} playWhilePausing := by
  intro hmeets
  obtain ⟨s, hs, hnot⟩ := playWhilePausing_run
  exact hnot (((always_agrees_iff hs).mpr hmeets).last session hs).1

theorem disagreement_reachable : ¬∀ (es : List SessionEvent) (s : Session),
    session.run {} es = some s → Agrees s ∧ ShortcutsSound s := by
  intro h
  obtain ⟨s, hs, hnot⟩ := playWhilePausing_run
  exact hnot (h playWhilePausing s hs).1

end RialtoGStreamer.MediaPlayerClient
