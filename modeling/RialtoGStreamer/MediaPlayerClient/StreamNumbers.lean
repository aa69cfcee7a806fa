import RialtoGStreamer.BufferParser.Model
import RialtoGStreamer.Library.WriteOnce
import RialtoGStreamer.MediaPlayerClient.Preroll

/-!
# How many streams the client waits for

Each sink reports the numbers of streams as it attaches to the client, and the
client keeps the first number it is told of each type. The sinks know the numbers
from the context of the pipeline or from playbin; without these each one guesses
from its own properties, and the guesses need not agree.
-/

namespace RialtoGStreamer.MediaPlayerClient

open BufferParser Library

/-- The numbers of streams told in one call of `handleStreamCollection`. -/
structure Report where
  audioStreams : ℤ := unknownStreamsNumber
  videoStreams : ℤ := unknownStreamsNumber
  subtitleStreams : ℤ := unknownStreamsNumber
  deriving DecidableEq

def Report.streams (r : Report) : MediaSourceType → ℤ
  | .audio => r.audioStreams
  | .video => r.videoStreams
  | .subtitle => r.subtitleStreams
  | .unknown => unknownStreamsNumber

/-! ## What a sink reports -/

/-- The properties of the oldest parent bin that tell the numbers of streams. -/
structure ParentObject where
  nVideo : Option ℤ := none
  nAudio : Option ℤ := none
  nText : Option ℤ := none
  flags : Option UInt32 := none

/-- What the sinks of one pipeline find around them: the context "streams-info", the
parent and the values of the play flags by their nicks. -/
structure Surroundings where
  context : Option GstStructure := none
  parentObject : ParentObject := {}
  getGstPlayFlag : String → UInt32

/-- The properties of a sink of a known type; "streams-number" starts at one. -/
structure SinkProperties where
  mediaSourceType : MediaSourceType
  numOfStreams : ℤ := 1
  isSinglePathStream : Bool := false
  known : mediaSourceType ≠ .unknown
  positive : 0 < numOfStreams

def maxStreams : ℕ := 2147483647

/-- The numbers in the context; `none` if one of them is too big. -/
def readStreamsInfo (info : GstStructure) : Option Report :=
  let nVideo := (info.getUint "video-streams").getD 0
  let nAudio := (info.getUint "audio-streams").getD 0
  let nText := (info.getUint "text-streams").getD 0
  if nVideo.toNat > maxStreams ∨ nAudio.toNat > maxStreams ∨ nText.toNat > maxStreams then none
  else
    some
      { audioStreams := nAudio.toNat
        videoStreams := nVideo.toNat
        subtitleStreams := nText.toNat }

/-- The properties of playbin; a type that its flags leave out has no streams. -/
def getNStreamsFromParent (env : Surroundings) : Option Report := do
  let nVideo ← env.parentObject.nVideo
  let nAudio ← env.parentObject.nAudio
  let nText ← env.parentObject.nText
  match env.parentObject.flags with
  | none => some { audioStreams := nAudio, videoStreams := nVideo, subtitleStreams := nText }
  | some flags =>
      let selected (nick : String) (n : ℤ) := if flags &&& env.getGstPlayFlag nick ≠ 0 then n else 0
      some
        { audioStreams := selected "audio" nAudio
          videoStreams := selected "video" nVideo
          subtitleStreams := selected "text" nText }

/-- The guess of a sink that is told nothing. -/
def SinkProperties.defaultStreams (sink : SinkProperties) : Report :=
  match sink.mediaSourceType with
  | .video =>
      { videoStreams := sink.numOfStreams
        audioStreams := if sink.isSinglePathStream then 0 else unknownStreamsNumber
        subtitleStreams := 0 }
  | .audio =>
      { audioStreams := sink.numOfStreams
        videoStreams := if sink.isSinglePathStream then 0 else unknownStreamsNumber
        subtitleStreams := 0 }
  | .subtitle =>
      { subtitleStreams := sink.numOfStreams
        videoStreams := if sink.isSinglePathStream then 0 else unknownStreamsNumber
        audioStreams := if sink.isSinglePathStream then 0 else unknownStreamsNumber }
  | .unknown => { subtitleStreams := 0 }

/-- What the sink reports; `none` if it fails before it does. -/
def setStreamsNumber (env : Surroundings) (sink : SinkProperties) : Option Report :=
  match env.context with
  | some info => readStreamsInfo info
  | none => some ((getNStreamsFromParent env).getD sink.defaultStreams)

/-! ## What the client keeps -/

def Event.report : Event → Option Report
  | .handleStreamCollection audioStreams videoStreams subtitleStreams =>
      some ⟨audioStreams, videoStreams, subtitleStreams⟩
  | _ => none

namespace Members

variable {m m' m'' : Members}

/-- The numbers of streams are the same. -/
structure SameNumbers (m m' : Members) : Prop where
  audioStreams : m'.audioStreams = m.audioStreams
  videoStreams : m'.videoStreams = m.videoStreams
  subtitleStreams : m'.subtitleStreams = m.subtitleStreams

theorem SameNumbers.trans (h : SameNumbers m m') (h' : SameNumbers m' m'') : SameNumbers m m'' where
  audioStreams := h'.audioStreams.trans h.audioStreams
  videoStreams := h'.videoStreams.trans h.videoStreams
  subtitleStreams := h'.subtitleStreams.trans h.subtitleStreams

theorem SameNumbers.streams (h : SameNumbers m m') : m'.streams = m.streams := by
  funext type
  cases type with
  | unknown => rfl
  | audio => exact h.audioStreams
  | video => exact h.videoStreams
  | subtitle => exact h.subtitleStreams

end Members

open Members (SameNumbers)

variable {c c' : Client} {id : SourceId}

theorem PlayMove.sameNumbers {async : Bool} {r : StateChangeResult}
    (hm : PlayMove c id async c' r) : SameNumbers c.toMembers c'.toMembers := by
  cases hm <;> exact ⟨rfl, rfl, rfl⟩

theorem PauseMove.sameNumbers {r : StateChangeResult} (hm : PauseMove c id c' r) :
    SameNumbers c.toMembers c'.toMembers := by
  cases hm <;> exact ⟨rfl, rfl, rfl⟩

theorem FlushMove.sameNumbers {resetTime : Bool} {answer : Option Bool}
    (hm : FlushMove c id resetTime answer c') : SameNumbers c.toMembers c'.toMembers := by
  cases hm <;> exact ⟨rfl, rfl, rfl⟩

theorem HandshakeMove.sameNumbers (hm : HandshakeMove c c') :
    SameNumbers c.toMembers c'.toMembers := by
  cases hm <;> exact ⟨rfl, rfl, rfl⟩

theorem AttachMove.sameNumbers {type : MediaSourceType} (hm : AttachMove c id type c') :
    SameNumbers c.toMembers c'.toMembers := by
  cases hm with
  | invalid => exact ⟨rfl, rfl, rfl⟩
  | known hhand =>
      refine SameNumbers.trans ?_ hhand.sameNumbers
      exact ⟨rfl, rfl, rfl⟩
  | new hid hhand =>
      refine SameNumbers.trans ?_ hhand.sameNumbers
      exact ⟨rfl, rfl, rfl⟩

theorem VisitMove.sameNumbers {state : PlaybackState} {visit : SourceId × Option Bool}
    (hm : VisitMove state c visit c') : SameNumbers c.toMembers c'.toMembers := by
  cases hm with
  | silent => exact ⟨rfl, rfl, rfl⟩
  | play hpaused hasked hplay =>
      refine SameNumbers.trans ?_ hplay.sameNumbers
      exact ⟨rfl, rfl, rfl⟩

theorem visits_sameNumbers (state : PlaybackState) (c : Client)
    (visits : List (SourceId × Option Bool)) :
    SameNumbers c.toMembers (visits.foldl (Client.notifySource state) c).toMembers := by
  induction visits generalizing c with
  | nil => exact ⟨rfl, rfl, rfl⟩
  | cons visit visits ih => exact (notifySource_move state c visit).sameNumbers.trans (ih _)

theorem notify_sameNumbers (c : Client) (state : PlaybackState)
    (visits : List (SourceId × Option Bool)) :
    SameNumbers c.toMembers (c.handlePlaybackStateChange state visits).toMembers := by
  cases state <;> simp only [Client.handlePlaybackStateChange] <;> try exact ⟨rfl, rfl, rfl⟩
  case playing =>
    split
    · exact ⟨rfl, rfl, rfl⟩
    · refine SameNumbers.trans ?_ (visits_sameNumbers .playing _ visits)
      split <;> exact ⟨rfl, rfl, rfl⟩
  case paused =>
    refine SameNumbers.trans ?_ (visits_sameNumbers .paused _ visits)
    split <;> exact ⟨rfl, rfl, rfl⟩
  case endOfStream => split <;> exact ⟨rfl, rfl, rfl⟩

/-- A report fills in what is unknown; nothing else touches the numbers. -/
theorem step_streams {e : Event} (hstep : c.step e = some c') (type : MediaSourceType) :
    c'.streams type = e.report.toList.foldl
      (fun known r ↦ WriteOnce.write unknownStreamsNumber known (r.streams type))
      (c.streams type) := by
  cases e with
  | handleStreamCollection audioStreams videoStreams subtitleStreams =>
      cases hstep
      cases type <;> rfl
  | attachSource id type result =>
      cases hstep
      exact congrFun (attachSource_move c id type result).sameNumbers.streams _
  | removeSource id =>
      cases hstep
      exact congrFun (SameNumbers.streams ⟨rfl, rfl, rfl⟩) _
  | sendAllSourcesAttachedIfPossible =>
      cases hstep
      exact congrFun (handshake_move c).sameNumbers.streams _
  | play id async =>
      cases hstep
      exact congrFun (play_move c id async).sameNumbers.streams _
  | pause id =>
      cases hstep
      exact congrFun (pause_move c id).sameNumbers.streams _
  | flush id resetTime answer =>
      cases hstep
      exact congrFun (flush_move c id resetTime answer).sameNumbers.streams _
  | handlePlaybackStateChange state visits =>
      simp only [Client.step] at hstep
      split at hstep
      · cases hstep
        exact congrFun (notify_sameNumbers c state visits).streams _
      · cases hstep
  | handleSourceFlushed id =>
      cases hstep
      exact congrFun (SameNumbers.streams ⟨rfl, rfl, rfl⟩) _

theorem run_streams {es : List Event} (hrun : machine.run c es = some c')
    (type : MediaSourceType) :
    c'.streams type = (es.filterMap Event.report).foldl
      (fun known r ↦ WriteOnce.write unknownStreamsNumber known (r.streams type))
      (c.streams type) := by
  induction es generalizing c with
  | nil =>
      cases hrun
      rfl
  | cons e es ih =>
      obtain ⟨c₁, hstep, hrest⟩ := machine.run_cons_eq_some_iff.mp hrun
      rw [ih hrest, step_streams hstep type]
      cases hreport : e.report with
      | none => rw [List.filterMap_cons_none hreport]; rfl
      | some r => rw [List.filterMap_cons_some hreport]; rfl

/-- The numbers are the first ones reported of each type, whatever else happens. -/
theorem streams_of_run {es : List Event} (hrun : machine.run {} es = some c) :
    c.toMembers.streams = fun type ↦
      WriteOnce.firstSet unknownStreamsNumber (Report.streams · type)
        (es.filterMap Event.report) := by
  funext type
  rw [run_streams hrun type, WriteOnce.foldl_write]
  cases type <;> rfl

def Report.event (r : Report) : Event :=
  .handleStreamCollection r.audioStreams r.videoStreams r.subtitleStreams

@[simp] theorem Report.event_report (r : Report) : r.event.report = some r := rfl

/-- The reports can be made in any order. -/
theorem exists_run_of_reports (reports : List Report) : ∀ c : Client,
    ∃ c', machine.run c (reports.map Report.event) = some c' := by
  induction reports with
  | nil => exact fun c ↦ ⟨c, rfl⟩
  | cons r reports ih =>
      intro c
      exact ih (c.handleStreamCollection r.audioStreams r.videoStreams r.subtitleStreams)

/-! ## Which sinks agree -/

/-- The two reports tell no different numbers. -/
def Report.Agrees (r s : Report) : Prop :=
  ∀ type, r.streams type ≠ unknownStreamsNumber → s.streams type ≠ unknownStreamsNumber →
    r.streams type = s.streams type

theorem Report.agrees_iff {r s : Report} : r.Agrees s ↔
    (r.audioStreams ≠ -1 → s.audioStreams ≠ -1 → r.audioStreams = s.audioStreams) ∧
      (r.videoStreams ≠ -1 → s.videoStreams ≠ -1 → r.videoStreams = s.videoStreams) ∧
        (r.subtitleStreams ≠ -1 → s.subtitleStreams ≠ -1 →
          r.subtitleStreams = s.subtitleStreams) := by
  constructor
  · intro h
    exact ⟨h .audio, h .video, h .subtitle⟩
  · rintro ⟨haudio, hvideo, hsubtitle⟩ type
    cases type with
    | unknown => exact fun _ _ ↦ rfl
    | audio => exact haudio
    | video => exact hvideo
    | subtitle => exact hsubtitle

namespace SinkProperties

/-- Two sinks of one type have the same number of streams. Of different types, they are an
audio and a video sink that both leave room for the other. -/
def Compatible (a b : SinkProperties) : Prop :=
  a.mediaSourceType = b.mediaSourceType ∧ a.numOfStreams = b.numOfStreams ∨
    a.mediaSourceType ≠ b.mediaSourceType ∧ a.mediaSourceType ≠ .subtitle ∧
      b.mediaSourceType ≠ .subtitle ∧ a.isSinglePathStream = false ∧ b.isSinglePathStream = false

theorem agrees_iff_compatible (a b : SinkProperties) :
    a.defaultStreams.Agrees b.defaultStreams ↔ a.Compatible b := by
  have ha := a.positive
  have hb := b.positive
  rw [Report.agrees_iff, Compatible]
  cases htype : a.mediaSourceType <;> cases htype' : b.mediaSourceType <;>
    first
    | exact absurd htype a.known
    | exact absurd htype' b.known
    | cases hsingle : a.isSinglePathStream <;> cases hsingle' : b.isSinglePathStream <;>
        simp [defaultStreams, htype, htype', hsingle, hsingle', unknownStreamsNumber] <;> omega

end SinkProperties

/-- The sinks need not guess. -/
def Surroundings.tells (env : Surroundings) : Prop :=
  env.context.isSome ∨ (getNStreamsFromParent env).isSome

/-- Where the sinks are told the numbers, they all report the same. -/
theorem Surroundings.tells.eq {env : Surroundings} (htells : env.tells)
    (a b : SinkProperties) : setStreamsNumber env a = setStreamsNumber env b := by
  unfold setStreamsNumber
  cases hcontext : env.context with
  | some info => rfl
  | none =>
      rcases htells with hsome | hsome
      · rw [hcontext] at hsome
        cases hsome
      · obtain ⟨r, hr⟩ := Option.isSome_iff_exists.mp hsome
        simp only [hr, Option.getD_some]

theorem setStreamsNumber_of_not_tells {env : Surroundings} (htells : ¬env.tells)
    (sink : SinkProperties) : setStreamsNumber env sink = some sink.defaultStreams := by
  obtain ⟨hcontext, hparent⟩ := not_or.mp htells
  rw [Option.not_isSome_iff_eq_none] at hcontext hparent
  simp only [setStreamsNumber, hcontext, hparent, Option.getD_none]

/-- The reports of the sinks agree. -/
theorem agree_iff (env : Surroundings) (sinks : List SinkProperties) :
    (∀ type, WriteOnce.Agree unknownStreamsNumber (Report.streams · type)
      (sinks.filterMap (setStreamsNumber env))) ↔
      env.tells ∨ ∀ a ∈ sinks, ∀ b ∈ sinks, a.Compatible b := by
  by_cases htells : env.tells
  · refine iff_of_true (fun type r hr s hs _ _ ↦ ?_) (.inl htells)
    obtain ⟨a, -, ha⟩ := List.mem_filterMap.mp hr
    obtain ⟨b, -, hb⟩ := List.mem_filterMap.mp hs
    rw [htells.eq a b, hb] at ha
    rw [Option.some.inj ha]
  · have hreports : ∀ r, r ∈ sinks.filterMap (setStreamsNumber env) ↔
        ∃ a ∈ sinks, a.defaultStreams = r := by
      simp [setStreamsNumber_of_not_tells htells]
    rw [or_iff_right htells]
    constructor
    · intro hagree a ha b hb
      refine (a.agrees_iff_compatible b).mp fun type ↦ ?_
      exact hagree type _ ((hreports _).mpr ⟨a, ha, rfl⟩) _ ((hreports _).mpr ⟨b, hb, rfl⟩)
    · intro hcompatible type r hr s hs
      obtain ⟨a, ha, rfl⟩ := (hreports r).mp hr
      obtain ⟨b, hb, rfl⟩ := (hreports s).mp hs
      exact (a.agrees_iff_compatible b).mpr (hcompatible a ha b hb) type

end RialtoGStreamer.MediaPlayerClient
