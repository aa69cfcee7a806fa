import Mathlib.Tactic.Common
import RialtoGStreamer.MediaPlayerClient.Model

/-!
# What one operation of the client can do

The inversions of `play`, `pause`, `flush` and the handshake, and the frame of
the loop over the sources in `handlePlaybackStateChange`. The properties of the
client are derived from these and do not unfold the operations.
-/

namespace RialtoGStreamer.MediaPlayerClient

open Library

namespace Client

/-! ## Frames -/

@[simp] theorem send_toMembers (c : Client) (command : Command) :
    (c.send command).toMembers = c.toMembers := rfl

@[simp] theorem send_sent (c : Client) (command : Command) :
    (c.send command).sent = c.sent ++ [(command, c.toMembers)] := rfl

@[simp] theorem send_posted (c : Client) (command : Command) :
    (c.send command).posted = c.posted := rfl

@[simp] theorem send_shortcuts (c : Client) (command : Command) :
    (c.send command).shortcuts = c.shortcuts := rfl

@[simp] theorem takeShortcut_toMembers (c : Client) (target : PlaybackState) :
    (c.takeShortcut target).toMembers = c.toMembers := rfl

@[simp] theorem takeShortcut_sent (c : Client) (target : PlaybackState) :
    (c.takeShortcut target).sent = c.sent := rfl

@[simp] theorem takeShortcut_shortcuts (c : Client) (target : PlaybackState) :
    (c.takeShortcut target).shortcuts = c.shortcuts ++ [target] := rfl

@[simp] theorem setState_clientState (c : Client) (id : SourceId)
    (state : ClientState) : (c.setState id state).clientState = c.clientState := rfl

@[simp] theorem setState_serverPlaybackState (c : Client) (id : SourceId)
    (state : ClientState) :
    (c.setState id state).serverPlaybackState = c.serverPlaybackState := rfl

@[simp] theorem setState_wasPlayingBeforeEos (c : Client) (id : SourceId)
    (state : ClientState) :
    (c.setState id state).wasPlayingBeforeEos = c.wasPlayingBeforeEos := rfl

@[simp] theorem setState_wasAllSourcesAttachedSent (c : Client) (id : SourceId)
    (state : ClientState) :
    (c.setState id state).wasAllSourcesAttachedSent = c.wasAllSourcesAttachedSent := rfl

@[simp] theorem setState_sent (c : Client) (id : SourceId) (state : ClientState) :
    (c.setState id state).sent = c.sent := rfl

@[simp] theorem setState_posted (c : Client) (id : SourceId) (state : ClientState) :
    (c.setState id state).posted = c.posted := rfl

@[simp] theorem setState_shortcuts (c : Client) (id : SourceId)
    (state : ClientState) : (c.setState id state).shortcuts = c.shortcuts := rfl

@[simp] theorem lookup_setState (c : Client) (j id : SourceId) (state : ClientState) :
    (c.setState id state).attachedSources.lookup j =
      if j = id then (c.attachedSources.lookup j).map ({ · with state := state })
      else c.attachedSources.lookup j := by
  simp [setState]

theorem lookup_tellSource (c : Client) (j id : SourceId) (state : PlaybackState) :
    (c.tellSource id state).attachedSources.lookup j =
      if j = id then (c.attachedSources.lookup j).map (stateAfter state)
      else c.attachedSources.lookup j :=
  Table.lookup_modify _ _ _ _

theorem isSome_lookup_tellSource (c : Client) (j id : SourceId) (state : PlaybackState) :
    ((c.tellSource id state).attachedSources.lookup j).isSome =
      (c.attachedSources.lookup j).isSome := by
  by_cases hj : j = id <;> simp [lookup_tellSource, hj]

theorem stateAfter_paused_state (source : AttachedSource) : (stateAfter .paused source).state =
    if source.state = .awaitingPaused then .paused else source.state := by
  by_cases h : source.state = .awaitingPaused <;> simp [stateAfter, h]

theorem stateAfter_playing_state (source : AttachedSource) : (stateAfter .playing source).state =
    if source.state = .awaitingPlaying then .playing else source.state := by
  by_cases h : source.state = .awaitingPlaying <;> simp [stateAfter, h]

end Client

/-- Every attached source is in one of the states. -/
def AllIn (m : Members) (states : List ClientState) : Prop :=
  ∀ id source, m.attachedSources.lookup id = some source → source.state ∈ states

theorem checkIfAll_eq_true_iff {m : Members} {states : List ClientState} :
    m.checkIfAllAttachedSourcesInStates states = true ↔ AllIn m states := by
  simp [Members.checkIfAllAttachedSourcesInStates, Table.all_eq_true_iff, AllIn]

theorem checkIfAll_eq_false_iff {m : Members} {states : List ClientState} :
    m.checkIfAllAttachedSourcesInStates states = false ↔ ¬AllIn m states := by
  rw [← checkIfAll_eq_true_iff, Bool.not_eq_true]

/-! ## Playing and pausing -/

/-- `alreadyPlaying` and `allPlaying` are the shortcut of `play`. -/
inductive PlayMove (c : Client) (id : SourceId) (async : Bool) :
    Client → StateChangeResult → Prop
  | notAttached (hid : c.attachedSources.lookup id = none) : PlayMove c id async c .notAttached
  | alreadyPlaying {source : AttachedSource} (hid : c.attachedSources.lookup id = some source)
      (hs : c.isServerPlaying = true)
      (hall : ¬AllIn (c.setState id .playing).toMembers [.playing]) :
      PlayMove c id async ((c.setState id .playing).takeShortcut .playing) .successSync
  | allPlaying {source : AttachedSource} (hid : c.attachedSources.lookup id = some source)
      (hs : c.isServerPlaying = true) (hall : AllIn (c.setState id .playing).toMembers [.playing]) :
      PlayMove c id async
        { (c.setState id .playing).takeShortcut .playing with clientState := .playing }
        .successSync
  | send {source : AttachedSource} (hid : c.attachedSources.lookup id = some source)
      (hs : c.isServerPlaying = false) (hpaused : c.clientState = .paused)
      (hall : AllIn (c.setState id .awaitingPlaying).toMembers [.awaitingPlaying, .playing]) :
      PlayMove c id async
        { (c.setState id .awaitingPlaying).send .play with
          clientState := .awaitingPlaying
          posted := if async then c.posted else c.posted ++ [.playing] }
        (if async then .successAsync else .successSync)
  | wait {source : AttachedSource} (hid : c.attachedSources.lookup id = some source)
      (hs : c.isServerPlaying = false)
      (hnot : c.clientState = .paused →
        ¬AllIn (c.setState id .awaitingPlaying).toMembers [.awaitingPlaying, .playing]) :
      PlayMove c id async (c.setState id .awaitingPlaying) .successAsync

theorem play_move (c : Client) (id : SourceId) (async : Bool) :
    PlayMove c id async (c.play id async).1 (c.play id async).2 := by
  unfold Client.play
  cases hid : c.attachedSources.lookup id with
  | none => exact .notAttached hid
  | some source =>
      cases hs : c.isServerPlaying with
      | true =>
          simp only [if_true]
          split
          · next hall => exact .allPlaying hid hs (checkIfAll_eq_true_iff.mp hall)
          · next hall =>
              exact .alreadyPlaying hid hs (checkIfAll_eq_false_iff.mp (Bool.not_eq_true _ ▸ hall))
      | false =>
          simp only [Bool.false_eq_true, if_false]
          split
          · next hsend =>
              have hall := checkIfAll_eq_true_iff.mp hsend.2
              cases async with
              | true => exact .send hid hs hsend.1 hall
              | false => exact .send hid hs hsend.1 hall
          · next hsend =>
              refine .wait hid hs fun hpaused hall ↦ hsend ⟨hpaused, ?_⟩
              exact checkIfAll_eq_true_iff.mpr hall

theorem PlayMove.frame {c c' : Client} {id : SourceId} {async : Bool} {r : StateChangeResult}
    (hm : PlayMove c id async c' r) : c'.serverPlaybackState = c.serverPlaybackState ∧
      ∀ j, (c'.attachedSources.lookup j).isSome = (c.attachedSources.lookup j).isSome := by
  cases hm <;> refine ⟨rfl, fun j ↦ ?_⟩ <;> by_cases hj : j = id <;> simp [hj]

theorem shouldPause_eq_true_iff {c : Client} : c.shouldPause = true ↔
    (c.clientState = .ready ∧ AllIn c.toMembers [.awaitingPaused]) ∨
      c.clientState = .awaitingPlaying ∨ c.clientState = .playing := by
  rw [← checkIfAll_eq_true_iff]
  unfold Client.shouldPause
  cases hstate : c.clientState <;> simp

/-- `alreadyPaused` and `allPaused` are the shortcut of `pause`. -/
inductive PauseMove (c : Client) (id : SourceId) : Client → StateChangeResult → Prop
  | notAttached (hid : c.attachedSources.lookup id = none) : PauseMove c id c .notAttached
  | alreadyPaused {source : AttachedSource} (hid : c.attachedSources.lookup id = some source)
      (hs : c.isServerPaused = true) (hall : ¬AllIn (c.setState id .paused).toMembers [.paused]) :
      PauseMove c id ((c.setState id .paused).takeShortcut .paused) .successSync
  | allPaused {source : AttachedSource} (hid : c.attachedSources.lookup id = some source)
      (hs : c.isServerPaused = true) (hall : AllIn (c.setState id .paused).toMembers [.paused]) :
      PauseMove c id
        { (c.setState id .paused).takeShortcut .paused with clientState := .paused }
        .successSync
  | sendFromReady {source : AttachedSource} (hid : c.attachedSources.lookup id = some source)
      (hs : c.isServerPaused = false) (hready : c.clientState = .ready)
      (hall : AllIn (c.setState id .awaitingPaused).toMembers [.awaitingPaused]) :
      PauseMove c id
        { (c.setState id .awaitingPaused).send .pause with clientState := .awaitingPaused }
        .successAsync
  | sendFromPlaying {source : AttachedSource} (hid : c.attachedSources.lookup id = some source)
      (hs : c.isServerPaused = false)
      (hplaying : c.clientState = .awaitingPlaying ∨ c.clientState = .playing) :
      PauseMove c id
        { (c.setState id .awaitingPaused).send .pause with clientState := .awaitingPaused }
        .successAsync
  | wait {source : AttachedSource} (hid : c.attachedSources.lookup id = some source)
      (hs : c.isServerPaused = false)
      (hnot : c.clientState ≠ .awaitingPlaying ∧ c.clientState ≠ .playing ∧
        (c.clientState = .ready →
          ¬AllIn (c.setState id .awaitingPaused).toMembers [.awaitingPaused])) :
      PauseMove c id (c.setState id .awaitingPaused) .successAsync

theorem pause_move (c : Client) (id : SourceId) :
    PauseMove c id (c.pause id).1 (c.pause id).2 := by
  unfold Client.pause
  cases hid : c.attachedSources.lookup id with
  | none => exact .notAttached hid
  | some source =>
      cases hs : c.isServerPaused with
      | true =>
          simp only [if_true]
          split
          · next hall => exact .allPaused hid hs (checkIfAll_eq_true_iff.mp hall)
          · next hall =>
              exact .alreadyPaused hid hs (checkIfAll_eq_false_iff.mp (Bool.not_eq_true _ ▸ hall))
      | false =>
          simp only [Bool.false_eq_true, if_false]
          split
          · next hshould =>
              rcases shouldPause_eq_true_iff.mp hshould with ⟨hready, hall⟩ | hplaying
              · exact .sendFromReady hid hs hready hall
              · exact .sendFromPlaying hid hs hplaying
          · next hshould =>
              rw [shouldPause_eq_true_iff] at hshould
              simp only [Client.setState_clientState, not_or, not_and] at hshould
              exact .wait hid hs ⟨hshould.2.1, hshould.2.2, hshould.1⟩

theorem PauseMove.serverPlaybackState {c c' : Client} {id : SourceId} {r : StateChangeResult}
    (hm : PauseMove c id c' r) : c'.serverPlaybackState = c.serverPlaybackState := by
  cases hm <;> rfl

/-! ## Flushing, the handshake and the sources -/

/-- `lost` is the asynchronous flush, after which the sink prerolls again. -/
inductive FlushMove (c : Client) (id : SourceId) (resetTime : Bool) :
    Option Bool → Client → Prop
  | notAttached {answer : Option Bool} (hid : c.attachedSources.lookup id = none) :
      FlushMove c id resetTime answer { c with wasPlayingBeforeEos := false }
  | refused {source : AttachedSource} (hid : c.attachedSources.lookup id = some source) :
      FlushMove c id resetTime none
        ({ c with wasPlayingBeforeEos := false }.send (.flush id resetTime))
  | kept {source : AttachedSource} (hid : c.attachedSources.lookup id = some source) :
      FlushMove c id resetTime (some false)
        { ({ c with wasPlayingBeforeEos := false }.send (.flush id resetTime)) with
          attachedSources := Table.modify id ({ · with isFlushing := true }) c.attachedSources }
  | lost {source : AttachedSource} (hid : c.attachedSources.lookup id = some source)
      {clientState : ClientState}
      (hstate : c.clientState = .playing ∧ clientState = .awaitingPlaying ∨
        c.clientState = .paused ∧ clientState = .awaitingPaused ∨
        c.clientState ≠ .playing ∧ c.clientState ≠ .paused ∧ clientState = c.clientState) :
      FlushMove c id resetTime (some true)
        { ({ c with wasPlayingBeforeEos := false }.send (.flush id resetTime)) with
          attachedSources :=
            Table.modify id ({ · with state := .awaitingPaused })
              (Table.modify id ({ · with isFlushing := true }) c.attachedSources)
          clientState := clientState }

theorem flush_move (c : Client) (id : SourceId) (resetTime : Bool) (answer : Option Bool) :
    FlushMove c id resetTime answer (c.flush id resetTime answer) := by
  unfold Client.flush
  cases hid : c.attachedSources.lookup id with
  | none =>
      simp only [hid]
      exact .notAttached hid
  | some source =>
      simp only [hid]
      cases answer with
      | none => exact .refused hid
      | some async =>
          cases async with
          | false => exact .kept hid
          | true =>
              refine .lost hid ?_
              simp only [Client.send_toMembers]
              cases hstate : c.clientState <;> simp

/-- The handshake is silent unless it is due. -/
inductive HandshakeMove (c : Client) : Client → Prop
  | silent : HandshakeMove c c
  | send (hsent : c.wasAllSourcesAttachedSent = false) (hattached : c.areAllStreamsAttached = true)
      (hnot : ¬AllIn c.toMembers [.awaitingPaused]) :
      HandshakeMove c
        { c.send .allSourcesAttached with
          wasAllSourcesAttachedSent := true
          clientState := .ready }
  | sendAndPause (hsent : c.wasAllSourcesAttachedSent = false)
      (hattached : c.areAllStreamsAttached = true) (hall : AllIn c.toMembers [.awaitingPaused]) :
      HandshakeMove c
        { ({ c.send .allSourcesAttached with
            wasAllSourcesAttachedSent := true
            clientState := .ready }.send .pause) with
          clientState := .awaitingPaused }

theorem handshake_move (c : Client) :
    HandshakeMove c c.sendAllSourcesAttachedIfPossibleInternal := by
  unfold Client.sendAllSourcesAttachedIfPossibleInternal
  split
  · next hdue =>
      simp only []
      split
      · next hall =>
          exact .sendAndPause hdue.1 hdue.2 (checkIfAll_eq_true_iff.mp hall)
      · next hall =>
          refine .send hdue.1 hdue.2 ?_
          exact checkIfAll_eq_false_iff.mp (Bool.not_eq_true _ ▸ hall)
  · exact .silent

theorem HandshakeMove.serverPlaybackState {c c' : Client} (hm : HandshakeMove c c') :
    c'.serverPlaybackState = c.serverPlaybackState := by
  cases hm <;> rfl

/-- A new source starts in READY; the handshake follows in any case. -/
inductive AttachMove (c : Client) (id : SourceId) (type : MediaSourceType) : Client → Prop
  | invalid : AttachMove c id type c
  | known {c' : Client} (hhand : HandshakeMove (c.send (.attachSource id type)) c') :
      AttachMove c id type c'
  | new {c' : Client} (hid : c.attachedSources.lookup id = none)
      (hhand : HandshakeMove
        { c.send (.attachSource id type) with
          attachedSources := c.attachedSources.insert id { type := type } } c') :
      AttachMove c id type c'

theorem attachSource_move (c : Client) (id : SourceId) (type : MediaSourceType)
    (result : Bool) : AttachMove c id type (c.attachSource id type result).1 := by
  unfold Client.attachSource
  split
  · exact .invalid
  · simp only []
    split
    · next hnew => exact .new hnew.2 (handshake_move _)
    · exact .known (handshake_move _)

theorem AttachMove.serverPlaybackState {c c' : Client} {id : SourceId} {type : MediaSourceType}
    (hm : AttachMove c id type c') : c'.serverPlaybackState = c.serverPlaybackState := by
  cases hm with
  | invalid => rfl
  | known hhand => exact hhand.serverPlaybackState
  | new hid hhand => exact hhand.serverPlaybackState

/-! ## The loop over the sources -/

/-- A visit is silent, or on PAUSED the delegate plays. -/
inductive VisitMove (state : PlaybackState) (c : Client) (visit : SourceId × Option Bool) :
    Client → Prop
  | silent (hsilent : state = .paused → visit.2 = none) :
      VisitMove state c visit (c.tellSource visit.1 state)
  | play {async : Bool} {c' : Client} {r : StateChangeResult} (hpaused : state = .paused)
      (hasked : visit.2 = some async)
      (hplay : PlayMove (c.tellSource visit.1 .paused) visit.1 async c' r) :
      VisitMove state c visit c'

theorem notifySource_move (state : PlaybackState) (c : Client)
    (visit : SourceId × Option Bool) :
    VisitMove state c visit (Client.notifySource state c visit) := by
  unfold Client.notifySource
  split
  · next hasked => exact .play rfl hasked (play_move _ _ _)
  · next hnot =>
      refine .silent fun hpaused ↦ ?_
      cases hanswer : visit.2 with
      | none => rfl
      | some async => exact absurd hanswer (hnot async hpaused)

theorem VisitMove.frame {state : PlaybackState} {c c' : Client} {visit : SourceId × Option Bool}
    (hm : VisitMove state c visit c') : c'.serverPlaybackState = c.serverPlaybackState ∧
      ∀ j, (c'.attachedSources.lookup j).isSome = (c.attachedSources.lookup j).isSome := by
  cases hm with
  | silent => exact ⟨rfl, fun j ↦ Client.isSome_lookup_tellSource _ _ _ _⟩
  | play hpaused hasked hplay =>
      obtain ⟨hserver, hsome⟩ := hplay.frame
      exact ⟨hserver, fun j ↦ (hsome j).trans (Client.isSome_lookup_tellSource _ _ _ _)⟩

theorem visits_serverPlaybackState (state : PlaybackState) (c : Client)
    (visits : List (SourceId × Option Bool)) :
    (visits.foldl (Client.notifySource state) c).serverPlaybackState = c.serverPlaybackState := by
  induction visits generalizing c with
  | nil => rfl
  | cons visit visits ih => exact (ih _).trans (notifySource_move state c visit).frame.1

theorem notify_serverPlaybackState (c : Client) (state : PlaybackState)
    (visits : List (SourceId × Option Bool)) :
    (c.handlePlaybackStateChange state visits).serverPlaybackState = state := by
  cases state <;> simp only [Client.handlePlaybackStateChange] <;> try rfl
  case playing =>
    split
    · rfl
    · rw [visits_serverPlaybackState]
      split <;> rfl
  case paused =>
    rw [visits_serverPlaybackState]
    split <;> rfl
  case endOfStream => split <;> rfl

end RialtoGStreamer.MediaPlayerClient
