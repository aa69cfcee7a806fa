import RialtoGStreamer.MediaPlayerClient.Moves

/-!
# Commands that the backend refuses

The backend answers most commands with a `bool`. The operations of the client
write their side of it next to the command and do not wait for the answer; each
refused command is recorded here with what the client held before and after.
-/

namespace RialtoGStreamer.MediaPlayerClient

open Library

structure Rectangle where
  x : UInt32
  y : UInt32
  width : UInt32
  height : UInt32
  deriving DecidableEq

/-- The conversion `%u`: blanks, a sign and digits, with the value of `strtoul`. -/
def scanUnsigned (input : List Char) : Option (UInt32 × List Char) :=
  let input := input.dropWhile fun c ↦ c.toNat ∈ [9, 10, 11, 12, 13, 32]
  let negative := input.head? = some '-'
  let input := if negative ∨ input.head? = some '+' then input.tail else input
  let digits := input.takeWhile Char.isDigit
  let value : ℕ := digits.foldl (fun n c ↦ 10 * n + (c.toNat - 48)) 0
  if digits = [] then none
  else
    let value :=
      if UInt64.size ≤ value then UInt64.size - 1
      else if negative then UInt64.size - value
      else value
    some (UInt32.ofNat value, input.drop digits.length)

def scanComma : List Char → Option (List Char)
  | ',' :: input => some input
  | _ => none

/-- `sscanf` with `"%u,%u,%u,%u"`, when all four are converted. -/
def sscanf (rectangleString : String) : Option Rectangle := do
  let (x, input) ← scanUnsigned rectangleString.toList
  let (y, input) ← scanUnsigned (← scanComma input)
  let (width, input) ← scanUnsigned (← scanComma input)
  let (height, _) ← scanUnsigned (← scanComma input)
  return { x, y, width, height }

/-- What the client keeps of what it has told the backend. -/
structure Cached (ν : Type*) where
  clientState : ClientState
  wasAllSourcesAttachedSent : Bool
  volume : ν
  videoRectangle : Rectangle
  deriving DecidableEq

inductive BackendCall (ν : Type*) where
  | command (command : Command)
  | setVolume (targetVolume : ν)
  | setVideoWindow (rectangle : Rectangle)
  deriving DecidableEq

/-- A call that the backend answered with `false`, made by an operation with
this result. -/
structure Refusal (ν : Type*) where
  call : BackendCall ν
  before : Cached ν
  after : Cached ν
  result : Option StateChangeResult
  deriving DecidableEq

structure World (ν : Type*) where
  client : Client := {}
  volume : ν
  videoRectangle : Rectangle := ⟨0, 0, 1920, 1080⟩
  isMediaPlayerBackendCreated : Bool := false
  refusals : List (Refusal ν) := []

/-- The operations whose commands are answered with a `bool` that does not reach
the caller. -/
inductive ClientOperation (ν : Type*) where
  | attachSource (id : SourceId) (type : MediaSourceType) (result : Bool)
  | sendAllSourcesAttachedIfPossible
  | play (id : SourceId) (async : Bool)
  | pause (id : SourceId)
  | setVolume (targetVolume : ν)
  | setVideoRectangle (rectangleString : String)
  | removeSource (id : SourceId)

/-- `attachSource` returns the answer of the backend and `flush` looks at it. -/
def Command.isReported : Command → Bool
  | .attachSource _ _ | .flush _ _ => false
  | .removeSource _ | .allSourcesAttached | .play | .pause => true

namespace World

variable {ν : Type*}

def cachedAt (w : World ν) (m : Members) : Cached ν where
  clientState := m.clientState
  wasAllSourcesAttachedSent := m.wasAllSourcesAttachedSent
  volume := w.volume
  videoRectangle := w.videoRectangle

def cached (w : World ν) : Cached ν :=
  w.cachedAt w.client.toMembers

/-- The window that `setVideoRectangle` asks for. -/
def videoWindow (w : World ν) (rectangleString : String) : Option Rectangle :=
  if w.isMediaPlayerBackendCreated = false then none
  else if rectangleString = "" then none
  else sscanf rectangleString

def setVideoRectangle (w : World ν) (rectangleString : String) : World ν :=
  match w.videoWindow rectangleString with
  | none => w
  | some rectangle => { w with videoRectangle := rectangle }

def setVolume (w : World ν) (targetVolume : ν) : World ν :=
  { w with volume := targetVolume }

/-- An operation with its result. No answer of the backend is looked at. -/
def operate (w : World ν) : ClientOperation ν → World ν × Option StateChangeResult
  | .attachSource id type result =>
      ({ w with client := (w.client.attachSource id type result).1 }, none)
  | .sendAllSourcesAttachedIfPossible =>
      ({ w with client := w.client.sendAllSourcesAttachedIfPossibleInternal }, none)
  | .play id async =>
      ({ w with client := (w.client.play id async).1 }, some (w.client.play id async).2)
  | .pause id => ({ w with client := (w.client.pause id).1 }, some (w.client.pause id).2)
  | .setVolume targetVolume => (w.setVolume targetVolume, none)
  | .setVideoRectangle rectangleString => (w.setVideoRectangle rectangleString, none)
  | .removeSource id => ({ w with client := w.client.removeSource id }, none)

/-- The commands sent on the way from one client to another. -/
def sentBetween (w : World ν) (c c' : Client) : List (BackendCall ν × Cached ν) :=
  ((c'.sent.drop c.sent.length).filter (·.1.isReported)).map fun x ↦
    (.command x.1, w.cachedAt x.2)

/-- The calls of an operation, each with what the client held at that moment. -/
def calls (w : World ν) (operation : ClientOperation ν) : List (BackendCall ν × Cached ν) :=
  match operation with
  | .setVolume targetVolume => [(.setVolume targetVolume, w.cached)]
  | .setVideoRectangle rectangleString =>
      (w.videoWindow rectangleString).toList.map fun rectangle ↦
        (.setVideoWindow rectangle, w.cached)
  | operation => w.sentBetween w.client (w.operate operation).1.client

/-- An operation whose calls the backend accepts or not. -/
def perform (w : World ν) (operation : ClientOperation ν)
    (accepts : BackendCall ν → Bool) : World ν :=
  let r := w.operate operation
  { r.1 with
    refusals := w.refusals ++ ((w.calls operation).filter (!accepts ·.1)).map fun x ↦
      { call := x.1, before := x.2, after := r.1.cached, result := r.2 } }

/-- One round of the loop on PAUSED. -/
def notifySource (accepts : BackendCall ν → Bool) (w : World ν)
    (visit : SourceId × Option Bool) : World ν :=
  let w := { w with client := w.client.tellSource visit.1 .paused }
  match visit.2 with
  | some async => w.perform (.play visit.1 async) accepts
  | none => w

/-- `handlePlaybackStateChange`, with the answers to the `play`s of the delegates. -/
def handlePlaybackStateChange (w : World ν) (state : PlaybackState)
    (visits : List (SourceId × Option Bool)) (accepts : BackendCall ν → Bool) : World ν :=
  match state with
  | .paused =>
      visits.foldl (notifySource accepts)
        { w with client := w.client.handlePlaybackStateChange .paused [] }
  | state => { w with client := w.client.handlePlaybackStateChange state visits }

end World

/-- `notifyPlaybackInfo` is the one that is not dropped. -/
inductive Occurrence (ν : Type*) where
  | operation (operation : ClientOperation ν) (accepts : BackendCall ν → Bool)
  | handlePlaybackStateChange (state : PlaybackState) (visits : List (SourceId × Option Bool))
      (accepts : BackendCall ν → Bool)
  | flush (id : SourceId) (resetTime : Bool) (answer : Option Bool)
  | handleStreamCollection (audioStreams videoStreams subtitleStreams : ℤ)
  | handleSourceFlushed (id : SourceId)
  | notifyPlaybackInfo (volume : ν)
  | createBackend (created : Bool)

def World.step {ν : Type*} (w : World ν) : Occurrence ν → Option (World ν)
  | .operation operation accepts => some (w.perform operation accepts)
  | .handlePlaybackStateChange state visits accepts =>
      if (visits.map Prod.fst).Perm w.client.attachedSources.keys then
        some (w.handlePlaybackStateChange state visits accepts)
      else none
  | .flush id resetTime answer => some { w with client := w.client.flush id resetTime answer }
  | .handleStreamCollection audioStreams videoStreams subtitleStreams =>
      some { w with
        client := w.client.handleStreamCollection audioStreams videoStreams subtitleStreams }
  | .handleSourceFlushed id => some { w with client := w.client.handleSourceFlushed id }
  | .notifyPlaybackInfo volume => some { w with volume := volume }
  | .createBackend created => some { w with isMediaPlayerBackendCreated := created }

def refusing (ν : Type*) : Machine (World ν) (Occurrence ν) where
  step := World.step

variable {ν : Type*}

/-- The client is as it was before the refused call, and the caller does not
wait for a notification. -/
def Refusal.Intact (r : Refusal ν) : Prop :=
  r.after = r.before ∧ r.result ≠ some .successAsync ∧ r.result ≠ some .successSync

/-- A call that asks for nothing the client does not hold anyway. -/
def BackendCall.Redundant : BackendCall ν → Cached ν → Prop
  | .command (.removeSource _), _ => True
  | .command _, _ => False
  | .setVolume targetVolume, before => targetVolume = before.volume
  | .setVideoWindow rectangle, before => rectangle = before.videoRectangle

/-! ## The commands of one operation -/

/-- The client holds something else than before the command. -/
def Moved (c : Client) (x : Command × Members) : Prop :=
  c.clientState ≠ x.2.clientState ∨
    c.wasAllSourcesAttachedSent ≠ x.2.wasAllSourcesAttachedSent

/-- The commands sent from `c` to `c'`; the reported ones among them moved the
client. -/
def Overwrites (c c' : Client) : Prop :=
  ∃ new, c'.sent = c.sent ++ new ∧
    ∀ x ∈ new, x.1.isReported = true → (∀ id, x.1 ≠ .removeSource id) ∧ Moved c' x

theorem overwrites_of_silent {c c' : Client} (h : c'.sent = c.sent) : Overwrites c c' :=
  ⟨[], by rw [h, List.append_nil], fun x hx ↦ (List.not_mem_nil hx).elim⟩

theorem overwrites_of_single {c c' : Client} {x : Command × Members}
    (h : c'.sent = c.sent ++ [x]) (hne : ∀ id, x.1 ≠ .removeSource id) (hmoved : Moved c' x) :
    Overwrites c c' := by
  refine ⟨[x], h, fun y hy _ ↦ ?_⟩
  obtain rfl := List.mem_singleton.mp hy
  exact ⟨hne, hmoved⟩

theorem PlayMove.overwrites {c c' : Client} {id : SourceId} {async : Bool}
    {r : StateChangeResult} (hm : PlayMove c id async c' r) : Overwrites c c' := by
  cases hm with
  | notAttached | alreadyPlaying | allPlaying | wait => exact overwrites_of_silent rfl
  | send hid hs hpaused =>
      apply overwrites_of_single rfl (by simp)
      left
      simp [hpaused]

theorem PauseMove.overwrites {c c' : Client} {id : SourceId} {r : StateChangeResult}
    (hm : PauseMove c id c' r) : Overwrites c c' := by
  cases hm with
  | notAttached | alreadyPaused | allPaused | wait => exact overwrites_of_silent rfl
  | sendFromReady hid hs hready =>
      apply overwrites_of_single rfl (by simp)
      left
      simp [hready]
  | sendFromPlaying hid hs hplaying =>
      apply overwrites_of_single rfl (by simp)
      left
      rcases hplaying with hplaying | hplaying <;> simp [hplaying]

theorem HandshakeMove.overwrites {c c' : Client} (hm : HandshakeMove c c') :
    Overwrites c c' := by
  cases hm with
  | silent => exact overwrites_of_silent rfl
  | send hsent =>
      apply overwrites_of_single rfl (by simp)
      right
      simp [hsent]
  | sendAndPause hsent =>
      refine ⟨_, List.append_assoc _ _ _, fun x hx _ ↦ ?_⟩
      rcases List.mem_append.mp hx with hx | hx
      · obtain rfl := List.mem_singleton.mp hx
        exact ⟨by simp, .inr (by simp [hsent])⟩
      · obtain rfl := List.mem_singleton.mp hx
        exact ⟨by simp, .inl (by simp)⟩

theorem Overwrites.after_attach {c b c' : Client} {id : SourceId} {type : MediaSourceType}
    (ho : Overwrites b c') (hb : b.sent = (c.send (.attachSource id type)).sent) :
    Overwrites c c' := by
  obtain ⟨new, hsent, hnew⟩ := ho
  refine ⟨(.attachSource id type, c.toMembers) :: new, ?_, fun x hx hreported ↦ ?_⟩
  · rw [hsent, hb, Client.send_sent, List.append_assoc]
    rfl
  · rcases List.mem_cons.mp hx with rfl | hx
    · cases hreported
    · exact hnew x hx hreported

theorem AttachMove.overwrites {c c' : Client} {id : SourceId} {type : MediaSourceType}
    (hm : AttachMove c id type c') : Overwrites c c' := by
  cases hm with
  | invalid => exact overwrites_of_silent rfl
  | known hhand => exact hhand.overwrites.after_attach rfl
  | new hid hhand => exact hhand.overwrites.after_attach rfl

/-- A reported command that moved the client is neither undone nor redundant. -/
theorem intact_iff_of_overwrites {w : World ν} {c : Client} (ho : Overwrites w.client c)
    {x : BackendCall ν × Cached ν} (hx : x ∈ w.sentBetween w.client c)
    (result : Option StateChangeResult) :
    Refusal.Intact
        { call := x.1, before := x.2, after := w.cachedAt c.toMembers, result := result } ↔
      x.1.Redundant x.2 := by
  obtain ⟨new, hsent, hnew⟩ := ho
  unfold World.sentBetween at hx
  rw [hsent, List.drop_left] at hx
  obtain ⟨y, hy, rfl⟩ := List.mem_map.mp hx
  obtain ⟨hmem, hreported⟩ := List.mem_filter.mp hy
  obtain ⟨hne, hmoved⟩ := hnew y hmem hreported
  constructor
  · rintro ⟨hsame, -⟩
    have hstate : c.clientState = y.2.clientState := congrArg Cached.clientState hsame
    have hwas := congrArg Cached.wasAllSourcesAttachedSent hsame
    rcases hmoved with hmoved | hmoved
    · exact absurd hstate hmoved
    · exact absurd hwas hmoved
  · intro hredundant
    obtain ⟨command, members⟩ := y
    cases command with
    | removeSource id => exact absurd rfl (hne id)
    | attachSource | allSourcesAttached | play | pause | flush => exact hredundant.elim

theorem intact_iff_of_mem_calls {w : World ν} {operation : ClientOperation ν}
    {x : BackendCall ν × Cached ν} (hx : x ∈ w.calls operation) :
    Refusal.Intact
        { call := x.1, before := x.2, after := (w.operate operation).1.cached
          result := (w.operate operation).2 } ↔
      x.1.Redundant x.2 := by
  cases operation with
  | attachSource id type result =>
      exact intact_iff_of_overwrites (attachSource_move _ id type result).overwrites hx _
  | sendAllSourcesAttachedIfPossible =>
      exact intact_iff_of_overwrites (handshake_move _).overwrites hx _
  | play id async => exact intact_iff_of_overwrites (play_move _ id async).overwrites hx _
  | pause id => exact intact_iff_of_overwrites (pause_move _ id).overwrites hx _
  | setVolume targetVolume =>
      obtain rfl := List.mem_singleton.mp hx
      constructor
      · rintro ⟨hsame, -⟩
        exact congrArg Cached.volume hsame
      · intro hvolume
        refine ⟨?_, by rintro ⟨⟩, by rintro ⟨⟩⟩
        change targetVolume = w.volume at hvolume
        subst hvolume
        rfl
  | setVideoRectangle rectangleString =>
      obtain ⟨rectangle, hwindow, rfl⟩ := List.mem_map.mp hx
      have hafter : (w.operate (.setVideoRectangle rectangleString)).1 =
          { w with videoRectangle := rectangle } := by
        change w.setVideoRectangle rectangleString = _
        rw [World.setVideoRectangle, Option.mem_toList.mp hwindow]
      rw [hafter]
      constructor
      · rintro ⟨hsame, -⟩
        exact congrArg Cached.videoRectangle hsame
      · intro hrectangle
        refine ⟨?_, by rintro ⟨⟩, by rintro ⟨⟩⟩
        change rectangle = w.videoRectangle at hrectangle
        subst hrectangle
        rfl
  | removeSource id =>
      have hcalls : w.calls (.removeSource id) = [(.command (.removeSource id), w.cached)] := by
        change w.sentBetween w.client (w.client.removeSource id) = _
        have hsent : (w.client.removeSource id).sent =
            w.client.sent ++ [(.removeSource id, w.client.toMembers)] := rfl
        rw [World.sentBetween, hsent, List.drop_left]
        rfl
      rw [hcalls] at hx
      obtain rfl := List.mem_singleton.mp hx
      constructor
      · exact fun _ ↦ trivial
      · exact fun _ ↦ ⟨rfl, by rintro ⟨⟩, by rintro ⟨⟩⟩

/-! ## The client in the runs -/

/-- What the client takes an occurrence for. -/
def Occurrence.onClient : Occurrence ν → Option Event
  | .operation (.attachSource id type result) _ => some (.attachSource id type result)
  | .operation .sendAllSourcesAttachedIfPossible _ => some .sendAllSourcesAttachedIfPossible
  | .operation (.play id async) _ => some (.play id async)
  | .operation (.pause id) _ => some (.pause id)
  | .operation (.removeSource id) _ => some (.removeSource id)
  | .handlePlaybackStateChange state visits _ => some (.handlePlaybackStateChange state visits)
  | .flush id resetTime answer => some (.flush id resetTime answer)
  | .handleStreamCollection audioStreams videoStreams subtitleStreams =>
      some (.handleStreamCollection audioStreams videoStreams subtitleStreams)
  | .handleSourceFlushed id => some (.handleSourceFlushed id)
  | .operation (.setVolume _) _ | .operation (.setVideoRectangle _) _ | .notifyPlaybackInfo _
  | .createBackend _ => none

theorem client_notifySource (w : World ν) (accepts : BackendCall ν → Bool)
    (visit : SourceId × Option Bool) :
    (World.notifySource accepts w visit).client =
      Client.notifySource .paused w.client visit := by
  unfold World.notifySource Client.notifySource
  cases visit.2 <;> rfl

theorem client_handlePlaybackStateChange (w : World ν) (state : PlaybackState)
    (visits : List (SourceId × Option Bool)) (accepts : BackendCall ν → Bool) :
    (w.handlePlaybackStateChange state visits accepts).client =
      w.client.handlePlaybackStateChange state visits := by
  have hvisits : ∀ w : World ν, (visits.foldl (World.notifySource accepts) w).client =
      visits.foldl (Client.notifySource .paused) w.client := by
    induction visits with
    | nil => exact fun w ↦ rfl
    | cons visit visits ih =>
        intro w
        rw [List.foldl_cons, List.foldl_cons, ih, client_notifySource]
  cases state with
  | paused => exact hvisits _
  | unknown | idle | playing | seekDone | stopped | endOfStream | failure => rfl

/-- The answers of the backend make no difference to the client. -/
theorem client_step {w u : World ν} {e : Occurrence ν} (hstep : (refusing ν).step w e = some u) :
    (e.onClient.elim (some w.client) fun event ↦ machine.step w.client event) =
      some u.client := by
  cases e with
  | operation operation accepts =>
      cases hstep
      cases operation with
      | setVideoRectangle rectangleString =>
          change some w.client = some (w.setVideoRectangle rectangleString).client
          unfold World.setVideoRectangle
          split <;> rfl
      | attachSource | sendAllSourcesAttachedIfPossible | play | pause | setVolume
      | removeSource => rfl
  | handlePlaybackStateChange state visits accepts =>
      change (if _ then some _ else none) = some u at hstep
      split at hstep
      · next hperm =>
          cases hstep
          rw [client_handlePlaybackStateChange]
          exact if_pos hperm
      · cases hstep
  | flush | handleStreamCollection | handleSourceFlushed | notifyPlaybackInfo | createBackend =>
      cases hstep
      rfl

/-! ## Whole runs -/

/-- Every refused call so far left the client intact exactly if it was redundant. -/
def Recorded (w : World ν) : Prop :=
  ∀ r ∈ w.refusals, r.Intact ↔ r.call.Redundant r.before

theorem recorded_perform {w : World ν} (hw : Recorded w) (operation : ClientOperation ν)
    (accepts : BackendCall ν → Bool) : Recorded (w.perform operation accepts) := by
  intro r hr
  rcases List.mem_append.mp hr with hold | hnew
  · exact hw r hold
  · obtain ⟨x, hx, rfl⟩ := List.mem_map.mp hnew
    exact intact_iff_of_mem_calls (List.mem_of_mem_filter hx)

theorem recorded_notifySource {w : World ν} (hw : Recorded w) (accepts : BackendCall ν → Bool)
    (visit : SourceId × Option Bool) : Recorded (World.notifySource accepts w visit) := by
  unfold World.notifySource
  cases visit.2 with
  | some async =>
      exact recorded_perform
        (w := { w with client := w.client.tellSource visit.1 .paused }) hw _ _
  | none => exact hw

theorem recorded_notify {w : World ν} (hw : Recorded w) (state : PlaybackState)
    (visits : List (SourceId × Option Bool)) (accepts : BackendCall ν → Bool) :
    Recorded (w.handlePlaybackStateChange state visits accepts) := by
  have hvisits : ∀ w : World ν, Recorded w →
      Recorded (visits.foldl (World.notifySource accepts) w) := by
    induction visits with
    | nil => exact fun w hw ↦ hw
    | cons visit visits ih => exact fun w hw ↦ ih _ (recorded_notifySource hw accepts visit)
  cases state with
  | paused =>
      exact hvisits { w with client := w.client.handlePlaybackStateChange .paused [] } hw
  | unknown | idle | playing | seekDone | stopped | endOfStream | failure => exact hw

theorem recorded_step {w u : World ν} {e : Occurrence ν} (hw : Recorded w)
    (hstep : (refusing ν).step w e = some u) : Recorded u := by
  cases e with
  | operation operation accepts =>
      cases hstep
      exact recorded_perform hw operation accepts
  | handlePlaybackStateChange state visits accepts =>
      change (if _ then some _ else none) = some u at hstep
      split at hstep
      · cases hstep
        exact recorded_notify hw state visits accepts
      · cases hstep
  | flush | handleStreamCollection | handleSourceFlushed | notifyPlaybackInfo | createBackend =>
      cases hstep
      exact hw

/-- In every run, with the `play`s of the delegates from within a notification:
a refused command leaves the client as it was, and its caller not waiting,
exactly if it was redundant. -/
theorem intact_iff_of_run {volume : ν} {w : World ν} {es : List (Occurrence ν)}
    (hrun : (refusing ν).run { volume := volume } es = some w) :
    ∀ r ∈ w.refusals, r.Intact ↔ r.call.Redundant r.before := by
  have hstart : Recorded { volume := volume } := fun r hr ↦ (List.not_mem_nil hr).elim
  exact (refusing ν).invariant (I := Recorded) (fun _ _ _ ↦ recorded_step) hstart hrun

/-- Every call is refused, but asks for what is there already. -/
def repeatedRequests : List (Occurrence ℕ) :=
  [.createBackend true, .notifyPlaybackInfo 3, .operation (.setVolume 3) (fun _ ↦ false),
    .operation (.setVideoRectangle "0,0,1920,1080") (fun _ ↦ false),
    .operation (.removeSource 7) (fun _ ↦ false)]

theorem intact_repeatedRequests :
    ∃ w, (refusing ℕ).run { volume := 1 } repeatedRequests = some w ∧ w.refusals.length = 3 ∧
      ∀ r ∈ w.refusals, r.Intact := by
  let held : Cached ℕ := ⟨.idle, false, 3, ⟨0, 0, 1920, 1080⟩⟩
  obtain ⟨w, hrun, hrefusals⟩ := Option.map_eq_some_iff.mp
    (show ((refusing ℕ).run { volume := 1 } repeatedRequests).map (·.refusals) = some [
        ⟨.setVolume 3, held, held, none⟩, ⟨.setVideoWindow ⟨0, 0, 1920, 1080⟩, held, held, none⟩,
        ⟨.command (.removeSource 7), held, held, none⟩] by
      decide +kernel)
  have hintact := intact_iff_of_run hrun
  rw [hrefusals] at hintact
  refine ⟨w, hrun, by rw [hrefusals]; rfl, ?_⟩
  rw [hrefusals]
  intro r hr
  rw [hintact r hr]
  simp only [List.mem_cons, List.not_mem_nil, or_false] at hr
  rcases hr with rfl | rfl | rfl
  · rfl
  · rfl
  · trivial

/-- The last command, which is to play the prerolled source, is refused. -/
def refusedPlay : List (Occurrence ℕ) :=
  [.handleStreamCollection 0 1 0, .operation (.attachSource 1 .video true) (fun _ ↦ true),
    .operation (.pause 1) (fun _ ↦ true),
    .handlePlaybackStateChange .paused [(1, none)] (fun _ ↦ true),
    .operation (.play 1 true) (fun _ ↦ false)]

def playRefusal : Refusal ℕ where
  call := .command .play
  before := ⟨.paused, true, 1, ⟨0, 0, 1920, 1080⟩⟩
  after := ⟨.awaitingPlaying, true, 1, ⟨0, 0, 1920, 1080⟩⟩
  result := some .successAsync

/-- The client awaits PLAYING all the same, and so does the sink. -/
theorem refused_play_awaited :
    ∃ w, (refusing ℕ).run { volume := 1 } refusedPlay = some w ∧ playRefusal ∈ w.refusals ∧
      ¬ playRefusal.Intact := by
  obtain ⟨w, hrun, hrefusals⟩ := Option.map_eq_some_iff.mp
    (show ((refusing ℕ).run { volume := 1 } refusedPlay).map (·.refusals) =
        some [playRefusal] by
      decide +kernel)
  refine ⟨w, hrun, ?_, ?_⟩
  · rw [hrefusals]
    exact List.mem_singleton_self _
  · rintro ⟨-, hasync, -⟩
    exact hasync rfl

end RialtoGStreamer.MediaPlayerClient
