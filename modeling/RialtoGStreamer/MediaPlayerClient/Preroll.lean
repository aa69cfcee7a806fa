import RialtoGStreamer.MediaPlayerClient.Moves

/-!
# The preroll

Each source announces the stream counts it knows, is attached and asks for
PAUSED; a stream collection tells all the counts. Whichever of these comes last
completes the handshake or the pause, and the outcome does not depend on the
order. Up to then what the client has sent is a function of its sources and
counts: the interleavings differ only in how these were reached.
-/

namespace RialtoGStreamer.MediaPlayerClient

open Library

/-- A source with the numbers of streams it announces. -/
structure Source where
  id : SourceId
  type : MediaSourceType
  audioStreams : ℤ
  videoStreams : ℤ
  subtitleStreams : ℤ
  deriving DecidableEq

inductive Action where
  | handleStreamCollection (k : Source)
  | attachSource (k : Source)
  | pause (k : Source)
  | streamCollection
  deriving DecidableEq

def Action.source : Action → Option Source
  | .handleStreamCollection k | .attachSource k | .pause k => some k
  | .streamCollection => none

def numberOf (sources : List Source) (type : MediaSourceType) : ℤ :=
  sources.countP fun k ↦ k.type = type

/-- The operations of an action; nothing comes between those of a stream collection. -/
def Action.events (sources : List Source) : Action → List Event
  | .handleStreamCollection k =>
      [.handleStreamCollection k.audioStreams k.videoStreams k.subtitleStreams]
  | .attachSource k => [.attachSource k.id k.type true]
  | .pause k => [.pause k.id]
  | .streamCollection =>
      [.handleStreamCollection (numberOf sources .audio) (numberOf sources .video)
        (numberOf sources .subtitle), .sendAllSourcesAttachedIfPossible]

/-- The number of streams of a type, where there is one. -/
def Source.streams (k : Source) : MediaSourceType → ℤ
  | .audio => k.audioStreams
  | .video => k.videoStreams
  | .subtitle => k.subtitleStreams
  | .unknown => unknownStreamsNumber

def Members.streams (m : Members) : MediaSourceType → ℤ
  | .audio => m.audioStreams
  | .video => m.videoStreams
  | .subtitle => m.subtitleStreams
  | .unknown => unknownStreamsNumber

/-- The backend gives each source an id of its own, and a source announces the
right number of streams of a type or none. -/
structure Consistent (sources : List Source) : Prop where
  ids : (sources.map (·.id)).Nodup
  typed : ∀ k ∈ sources, k.type ≠ .unknown
  counts : ∀ k ∈ sources, ∀ type, k.streams type = numberOf sources type ∨
    k.streams type = unknownStreamsNumber

/-- Each source performs its three actions in their order, and one stream
collection comes somewhere. -/
structure Interleaving (sources : List Source) (actions : List Action) : Prop where
  order : ∀ k ∈ sources, actions.filter (fun a ↦ a.source = some k) =
    [.handleStreamCollection k, .attachSource k, .pause k]
  known : ∀ a ∈ actions, ∀ k ∈ a.source, k ∈ sources
  collection : actions.count .streamCollection = 1

/-- The handshake and the pause were sent, in this order, once each and after
everything else, and exactly the given sources are attached and await PAUSED. -/
structure Prerolled (sources : List Source) (c : Client) : Prop where
  sent : ∃ attached : List (SourceId × MediaSourceType),
    c.sent.map Prod.fst =
      attached.map (fun x ↦ .attachSource x.1 x.2) ++ [.allSourcesAttached, .pause]
  clientState : c.clientState = .awaitingPaused
  sources : ∀ id source, c.attachedSources.lookup id = some source ↔
    ∃ k ∈ sources, k.id = id ∧ source = { type := k.type, state := .awaitingPaused }

/-! ## What the client has sent -/

/-- Where the preroll is, by the sources and the counts alone. -/
def Members.stage (m : Members) : ClientState × Bool × List Command :=
  if m.areAllStreamsAttached then
    if m.checkIfAllAttachedSourcesInStates [.awaitingPaused] then
      (.awaitingPaused, true, [.allSourcesAttached, .pause])
    else (.ready, true, [.allSourcesAttached])
  else (.idle, false, [])

/-- The client state, the flag and the commands behind the attachments. -/
def Reached (c : Client) (stage : ClientState × Bool × List Command) : Prop :=
  c.clientState = stage.1 ∧ c.wasAllSourcesAttachedSent = stage.2.1 ∧
    ∃ attached : List (SourceId × MediaSourceType),
      c.sent.map Prod.fst = attached.map (fun x ↦ .attachSource x.1 x.2) ++ stage.2.2

/-- Nothing changes that the stage depends on, nor what is known of the server. -/
structure SameSources (m m' : Members) : Prop where
  attachedSources : m'.attachedSources = m.attachedSources
  audioStreams : m'.audioStreams = m.audioStreams
  videoStreams : m'.videoStreams = m.videoStreams
  subtitleStreams : m'.subtitleStreams = m.subtitleStreams
  serverPlaybackState : m'.serverPlaybackState = m.serverPlaybackState

theorem SameSources.streams {m m' : Members} (h : SameSources m m') (type : MediaSourceType) :
    m'.streams type = m.streams type := by
  cases type with
  | unknown => rfl
  | audio => exact h.audioStreams
  | video => exact h.videoStreams
  | subtitle => exact h.subtitleStreams

theorem SameSources.stage {m m' : Members} (h : SameSources m m') : m'.stage = m.stage := by
  unfold Members.stage Members.areAllStreamsAttached Members.checkIfAllAttachedSourcesInStates
    Members.attachedSourcesOf
  rw [h.attachedSources, h.audioStreams, h.videoStreams, h.subtitleStreams]

theorem HandshakeMove.sameSources {c c' : Client} (hm : HandshakeMove c c') :
    SameSources c.toMembers c'.toMembers := by
  cases hm <;> exact ⟨rfl, rfl, rfl, rfl, rfl⟩

/-- The handshake and, if all the sources are waiting for it, the pause. -/
theorem reached_sendAllSourcesAttached {c : Client} (h : Reached c (.idle, false, [])) :
    Reached c.sendAllSourcesAttachedIfPossibleInternal c.stage := by
  obtain ⟨hstate, hsent, attached, hcommands⟩ := h
  rw [List.append_nil] at hcommands
  unfold Client.sendAllSourcesAttachedIfPossibleInternal Members.stage
  by_cases hall : c.areAllStreamsAttached = true
  · rw [if_pos ⟨hsent, hall⟩, if_pos hall]
    dsimp only
    split
    · next hpaused =>
        have hwaiting : c.checkIfAllAttachedSourcesInStates [.awaitingPaused] = true := hpaused
        rw [if_pos hwaiting]
        exact ⟨rfl, rfl, attached, by simp [hcommands]⟩
    · next hpaused =>
        have hwaiting : ¬c.checkIfAllAttachedSourcesInStates [.awaitingPaused] = true := hpaused
        rw [if_neg hwaiting]
        exact ⟨rfl, rfl, attached, by simp [hcommands]⟩
  · rw [if_neg (fun hdue ↦ hall hdue.2), if_neg hall]
    exact ⟨hstate, hsent, attached, by simp [hcommands]⟩

/-! ## The sources attached so far -/

/-- What the actions done so far make of the sources and the counts. -/
structure Roster (sources : List Source) (done : List Action) (c : Client) : Prop where
  server : c.serverPlaybackState = .idle
  attached : ∀ id source, c.attachedSources.lookup id = some source ↔
    ∃ k ∈ sources, k.id = id ∧ .attachSource k ∈ done ∧
      source =
        { type := k.type, state := if .pause k ∈ done then .awaitingPaused else .ready }
  streams : ∀ type, type ≠ .unknown → c.streams type = numberOf sources type ∨
    c.streams type = unknownStreamsNumber ∧ .streamCollection ∉ done

theorem Consistent.eq_of_id {sources : List Source} (h : Consistent sources) {k k' : Source}
    (hk : k ∈ sources) (hk' : k' ∈ sources) (hid : k.id = k'.id) : k = k' :=
  List.inj_on_of_nodup_map h.ids hk hk' hid

theorem areAllStreamsAttached_eq_true_iff {m : Members} : m.areAllStreamsAttached = true ↔
    ∀ type, type ≠ .unknown → m.attachedSourcesOf type = m.streams type := by
  unfold Members.areAllStreamsAttached
  rw [decide_eq_true_iff]
  constructor
  · rintro ⟨hvideo, haudio, hsubtitle⟩ type htype
    cases type with
    | unknown => exact absurd rfl htype
    | audio => exact haudio
    | video => exact hvideo
    | subtitle => exact hsubtitle
  · exact fun h ↦ ⟨h .video (by simp), h .audio (by simp), h .subtitle (by simp)⟩

theorem Roster.lookup {sources : List Source} {done : List Action} {c : Client}
    (hsources : Consistent sources) (h : Roster sources done c) {k : Source}
    (hk : k ∈ sources) : c.attachedSources.lookup k.id =
      if .attachSource k ∈ done then
        some { type := k.type, state := if .pause k ∈ done then .awaitingPaused else .ready }
      else none := by
  split
  · next hattached => exact (h.attached _ _).mpr ⟨k, hk, rfl, hattached, rfl⟩
  · next hnew =>
      apply Option.eq_none_iff_forall_ne_some.mpr
      intro source hsource
      obtain ⟨k', hk', hid, hattached, -⟩ := (h.attached _ _).mp hsource
      rw [hsources.eq_of_id hk' hk hid] at hattached
      exact hnew hattached

theorem Roster.attachedSourcesOf {sources : List Source} {done : List Action} {c : Client}
    (hsources : Consistent sources) (h : Roster sources done c) (type : MediaSourceType) :
    c.attachedSourcesOf type =
      sources.countP fun k ↦ decide (k.type = type) && decide (.attachSource k ∈ done) := by
  have hkeys : ∀ id source, c.attachedSources.lookup id = some source →
      id ∈ sources.map (·.id) := by
    intro id source hsource
    obtain ⟨k, hk, hid, -⟩ := (h.attached id source).mp hsource
    exact List.mem_map.mpr ⟨k, hk, hid⟩
  unfold Members.attachedSourcesOf
  rw [Table.count_eq_countP hsources.ids hkeys, List.countP_map, Int.ofNat_inj]
  apply List.countP_congr
  intro k hk
  rw [Function.comp_apply, h.lookup hsources hk]
  by_cases hattached : Action.attachSource k ∈ done <;> simp [hattached]

theorem countP_and_lt {α : Type*} {p q : α → Bool} {l : List α} {a : α} (ha : a ∈ l)
    (hp : p a = true) (hq : q a = false) : (l.countP fun x ↦ p x && q x) < l.countP p := by
  rw [List.countP_eq_countP_filter_add l p q, List.countP_filter]
  have hrest : 0 < (l.filter fun x ↦ !q x).countP p :=
    List.countP_pos_iff.mpr ⟨a, List.mem_filter.mpr ⟨ha, by simp [hq]⟩, hp⟩
  omega

/-- As long as a source is missing, so are streams of its type. -/
theorem Roster.missing {sources : List Source} {done : List Action} {c : Client}
    (hsources : Consistent sources) (h : Roster sources done c) {k : Source}
    (hk : k ∈ sources) (hnew : .attachSource k ∉ done) : c.areAllStreamsAttached = false := by
  rw [Bool.eq_false_iff, Ne, areAllStreamsAttached_eq_true_iff]
  intro hall
  have hcount := hall k.type (hsources.typed k hk)
  rw [h.attachedSourcesOf hsources] at hcount
  have hfewer : (sources.countP fun k' ↦
      decide (k'.type = k.type) && decide (.attachSource k' ∈ done)) <
        sources.countP fun k' ↦ k'.type = k.type :=
    countP_and_lt hk (by simp) (by simp [hnew])
  rcases h.streams k.type (hsources.typed k hk) with hright | ⟨hunknown, -⟩
  · rw [hright, numberOf, Int.ofNat_inj] at hcount
    omega
  · rw [hunknown, unknownStreamsNumber] at hcount
    omega

theorem stage_of_missing {m : Members} (h : m.areAllStreamsAttached = false) :
    m.stage = (.idle, false, []) := by
  unfold Members.stage
  rw [if_neg (by simp [h])]

/-! ## One action -/

/-- What the order of the actions says about the next one. -/
inductive Next (sources : List Source) (done : List Action) : Action → Prop
  | handleStreamCollection {k : Source} (hk : k ∈ sources) (hnew : .attachSource k ∉ done) :
      Next sources done (.handleStreamCollection k)
  | attachSource {k : Source} (hk : k ∈ sources) (hnew : .attachSource k ∉ done)
      (hpause : .pause k ∉ done) : Next sources done (.attachSource k)
  | pause {k : Source} (hk : k ∈ sources) (hattached : .attachSource k ∈ done)
      (hnew : .pause k ∉ done) : Next sources done (.pause k)
  | streamCollection : Next sources done .streamCollection

theorem Roster.attached_append {sources : List Source} {done : List Action} {c d : Client}
    (h : Roster sources done c) (htable : d.attachedSources = c.attachedSources) {a : Action}
    (ha : ∀ k, .attachSource k ≠ a ∧ .pause k ≠ a) (id : SourceId) (source : AttachedSource) :
    d.attachedSources.lookup id = some source ↔
      ∃ k ∈ sources, k.id = id ∧ .attachSource k ∈ done ++ [a] ∧ source =
        { type := k.type,
          state := if .pause k ∈ done ++ [a] then .awaitingPaused else .ready } := by
  rw [htable, h.attached]
  simp [ha]

theorem streams_handleStreamCollection {sources : List Source} {done : List Action} {c : Client}
    (h : Roster sources done c) (k : Source) (hcounts : ∀ type, type ≠ .unknown →
      k.streams type = numberOf sources type ∨ k.streams type = unknownStreamsNumber)
    (type : MediaSourceType) (htype : type ≠ .unknown) :
    (c.handleStreamCollection k.audioStreams k.videoStreams k.subtitleStreams).streams type =
        numberOf sources type ∨
      (c.handleStreamCollection k.audioStreams k.videoStreams k.subtitleStreams).streams type =
        unknownStreamsNumber ∧ k.streams type = unknownStreamsNumber ∧
          .streamCollection ∉ done := by
  have hupdate : (c.handleStreamCollection k.audioStreams k.videoStreams
      k.subtitleStreams).streams type =
        if c.streams type = unknownStreamsNumber then k.streams type else c.streams type := by
    cases type with
    | unknown => exact absurd rfl htype
    | audio | video | subtitle => rfl
  rw [hupdate]
  rcases h.streams type htype with hright | ⟨hunknown, hnone⟩
  · refine .inl ?_
    rw [if_neg, hright]
    rw [hright, numberOf, unknownStreamsNumber]
    omega
  · rw [if_pos hunknown]
    exact (hcounts type htype).imp_right fun hk ↦ ⟨hk, hk, hnone⟩

theorem Roster.handleStreamCollection {sources : List Source} {done : List Action} {c : Client}
    (h : Roster sources done c) {k : Source} (hcounts : ∀ type, type ≠ .unknown →
      k.streams type = numberOf sources type ∨ k.streams type = unknownStreamsNumber) :
    Roster sources (done ++ [.handleStreamCollection k])
      (c.handleStreamCollection k.audioStreams k.videoStreams k.subtitleStreams) := by
  refine ⟨h.server, h.attached_append rfl (by simp), fun type htype ↦ ?_⟩
  apply (streams_handleStreamCollection h k hcounts type htype).imp_right
  rintro ⟨hunknown, -, hnone⟩
  exact ⟨hunknown, by simpa using hnone⟩

theorem Roster.streamCollection {sources : List Source} {done : List Action} {c : Client}
    (h : Roster sources done c) :
    Roster sources (done ++ [.streamCollection])
      (c.handleStreamCollection (numberOf sources .audio) (numberOf sources .video)
        (numberOf sources .subtitle)) := by
  let k : Source := ⟨0, .unknown, numberOf sources .audio, numberOf sources .video,
    numberOf sources .subtitle⟩
  have hcounts : ∀ type, type ≠ .unknown → k.streams type = numberOf sources type := by
    intro type htype
    cases type with
    | unknown => exact absurd rfl htype
    | audio | video | subtitle => rfl
  refine ⟨h.server, h.attached_append rfl (by simp), fun type htype ↦ .inl ?_⟩
  have hstreams := streams_handleStreamCollection h k (fun t ht ↦ .inl (hcounts t ht)) type htype
  apply hstreams.resolve_right
  rintro ⟨-, hunknown, -⟩
  rw [hcounts type htype, numberOf, unknownStreamsNumber] at hunknown
  omega

theorem Roster.of_sameSources {sources : List Source} {done : List Action} {c d : Client}
    (h : Roster sources done c) (hsame : SameSources c.toMembers d.toMembers) :
    Roster sources done d := by
  refine ⟨hsame.serverPlaybackState.trans h.server, ?_, ?_⟩
  · rw [hsame.attachedSources]
    exact h.attached
  · intro type htype
    rw [hsame.streams]
    exact h.streams type htype

theorem Roster.attachSource {sources : List Source} {done : List Action} {c : Client}
    (hsources : Consistent sources) (h : Roster sources done c) {k : Source}
    (hk : k ∈ sources) (hnew : .attachSource k ∉ done) (hpause : .pause k ∉ done) :
    Roster sources (done ++ [.attachSource k])
      { c.send (.attachSource k.id k.type) with
        attachedSources := c.attachedSources.insert k.id { type := k.type } } := by
  refine ⟨h.server, fun id source ↦ ?_, fun type htype ↦ ?_⟩
  · change (c.attachedSources.insert k.id _).lookup id = some source ↔ _
    rw [Table.lookup_insert]
    constructor
    · split
      · next hid =>
          rintro ⟨⟩
          exact ⟨k, hk, hid.symm, by simp, by simp [hpause]⟩
      · intro hsource
        obtain ⟨k', hk', hid, hattached, hvalue⟩ := (h.attached id source).mp hsource
        exact ⟨k', hk', hid, List.mem_append_left _ hattached, by simpa using hvalue⟩
    · rintro ⟨k', hk', rfl, hattached, hvalue⟩
      by_cases hsame : k' = k
      · subst hsame
        rw [if_pos rfl, hvalue]
        simp [hpause]
      · rw [if_neg fun hid ↦ hsame (hsources.eq_of_id hk' hk hid)]
        refine (h.attached _ _).mpr ⟨k', hk', rfl, ?_, by simpa using hvalue⟩
        simpa [hsame] using hattached
  · exact (h.streams type htype).imp_right fun hunknown ↦ ⟨hunknown.1, by simpa using hunknown.2⟩

theorem Roster.pause {sources : List Source} {done : List Action} {c : Client}
    (hsources : Consistent sources) (h : Roster sources done c) {k : Source}
    (hk : k ∈ sources) (hattached : .attachSource k ∈ done) :
    Roster sources (done ++ [.pause k]) (c.setState k.id .awaitingPaused) := by
  refine ⟨h.server, fun id source ↦ ?_, fun type htype ↦ ?_⟩
  · have hfront := h.lookup hsources hk
    rw [if_pos hattached] at hfront
    rw [Client.lookup_setState]
    constructor
    · split
      · next hid =>
          rw [hid, hfront]
          rintro ⟨⟩
          exact ⟨k, hk, rfl, List.mem_append_left _ hattached, by simp⟩
      · next hid =>
          intro hsource
          obtain ⟨k', hk', rfl, hattached', hvalue⟩ := (h.attached id source).mp hsource
          have hother : k' ≠ k := fun hsame ↦ hid (hsame ▸ rfl)
          exact ⟨k', hk', rfl, List.mem_append_left _ hattached', by simpa [hother] using hvalue⟩
    · rintro ⟨k', hk', rfl, hattached', hvalue⟩
      by_cases hsame : k' = k
      · subst hsame
        rw [if_pos rfl, hfront, hvalue]
        simp
      · rw [if_neg fun hid ↦ hsame (hsources.eq_of_id hk' hk hid)]
        refine (h.attached _ _).mpr ⟨k', hk', rfl, by simpa using hattached', ?_⟩
        simpa [hsame] using hvalue
  · exact (h.streams type htype).imp_right fun hunknown ↦ ⟨hunknown.1, by simpa using hunknown.2⟩

/-- The client has sent what its sources and counts call for. -/
structure Progress (sources : List Source) (done : List Action) (c : Client) : Prop where
  roster : Roster sources done c
  reached : Reached c c.stage

theorem Progress.early {sources : List Source} {done : List Action} {c : Client}
    (hsources : Consistent sources) (h : Progress sources done c) {k : Source}
    (hk : k ∈ sources) (hnew : .attachSource k ∉ done) : Reached c (.idle, false, []) := by
  have hreached := h.reached
  rwa [stage_of_missing (h.roster.missing hsources hk hnew)] at hreached

theorem progress_sendAllSourcesAttached {sources : List Source} {done : List Action} {c : Client}
    (h : Roster sources done c) (hearly : Reached c (.idle, false, [])) :
    Progress sources done c.sendAllSourcesAttachedIfPossibleInternal := by
  have hsame := (handshake_move c).sameSources
  refine ⟨h.of_sameSources hsame, ?_⟩
  rw [hsame.stage]
  exact reached_sendAllSourcesAttached hearly

theorem progress_handleStreamCollection {sources : List Source} {done : List Action} {c : Client}
    (hsources : Consistent sources) (h : Progress sources done c) {k : Source}
    (hk : k ∈ sources) (hnew : .attachSource k ∉ done) :
    Progress sources (done ++ [.handleStreamCollection k])
      (c.handleStreamCollection k.audioStreams k.videoStreams k.subtitleStreams) := by
  have hroster := h.roster.handleStreamCollection (fun t _ ↦ hsources.counts k hk t)
  refine ⟨hroster, ?_⟩
  rw [stage_of_missing (hroster.missing hsources hk (by simpa using hnew))]
  have hearly := h.early hsources hk hnew
  exact ⟨hearly.1, hearly.2.1, hearly.2.2⟩

theorem progress_attachSource {sources : List Source} {done : List Action} {c : Client}
    (hsources : Consistent sources) (h : Progress sources done c) {k : Source}
    (hk : k ∈ sources) (hnew : .attachSource k ∉ done) (hpause : .pause k ∉ done) :
    Progress sources (done ++ [.attachSource k]) (c.attachSource k.id k.type true).1 := by
  have hroster := h.roster.attachSource hsources hk hnew hpause
  obtain ⟨hstate, hsent, attached, hcommands⟩ := h.early hsources hk hnew
  have hfresh : (c.send (.attachSource k.id k.type)).attachedSources.lookup k.id = none := by
    change c.attachedSources.lookup k.id = none
    rw [h.roster.lookup hsources hk, if_neg hnew]
  unfold Client.attachSource
  rw [if_neg (hsources.typed k hk)]
  dsimp only
  rw [if_pos ⟨rfl, hfresh⟩]
  refine progress_sendAllSourcesAttached hroster ⟨hstate, hsent, attached ++ [(k.id, k.type)], ?_⟩
  rw [List.append_nil] at hcommands
  simp [hcommands]

theorem stage_of_complete {m : Members} (hall : m.areAllStreamsAttached = true) :
    (AllIn m [.awaitingPaused] → m.stage = (.awaitingPaused, true, [.allSourcesAttached, .pause])) ∧
      (¬AllIn m [.awaitingPaused] → m.stage = (.ready, true, [.allSourcesAttached])) := by
  unfold Members.stage
  rw [if_pos hall]
  constructor
  · intro hpaused
    rw [if_pos (checkIfAll_eq_true_iff.mpr hpaused)]
  · intro hpaused
    rw [if_neg (by simp [checkIfAll_eq_false_iff.mpr hpaused])]

theorem areAllStreamsAttached_setState {sources : List Source} {done : List Action} {c : Client}
    (hsources : Consistent sources) (h : Roster sources done c) {k : Source}
    (hk : k ∈ sources) (hattached : .attachSource k ∈ done) :
    (c.setState k.id .awaitingPaused).areAllStreamsAttached = c.areAllStreamsAttached := by
  have hcount : ∀ type, (c.setState k.id .awaitingPaused).attachedSourcesOf type =
      c.attachedSourcesOf type := by
    intro type
    rw [(h.pause hsources hk hattached).attachedSourcesOf hsources, h.attachedSourcesOf hsources]
    simp
  rw [Bool.eq_iff_iff, areAllStreamsAttached_eq_true_iff, areAllStreamsAttached_eq_true_iff]
  simp only [hcount]
  rfl

theorem progress_pause {sources : List Source} {done : List Action} {c : Client}
    (hsources : Consistent sources) (h : Progress sources done c) {k : Source}
    (hk : k ∈ sources) (hattached : .attachSource k ∈ done) (hnew : .pause k ∉ done) :
    Progress sources (done ++ [.pause k]) (c.pause k.id).1 := by
  have hroster := h.roster.pause hsources hk hattached
  have hcomplete := areAllStreamsAttached_setState hsources h.roster hk hattached
  have hserver : c.isServerPaused = false := by simp [Members.isServerPaused, h.roster.server]
  have hlookup := h.roster.lookup hsources hk
  rw [if_pos hattached, if_neg hnew] at hlookup
  have hready : ¬AllIn c.toMembers [.awaitingPaused] := fun hall ↦ by
    simpa using hall k.id _ hlookup
  have hreached := h.reached
  have hmove := pause_move c k.id
  generalize (c.pause k.id).1 = d, (c.pause k.id).2 = r at hmove ⊢
  cases hall : c.areAllStreamsAttached with
  | false =>
      rw [hall] at hcomplete
      rw [stage_of_missing hall] at hreached
      obtain ⟨hstate, hsent, hcommands⟩ := hreached
      cases hmove with
      | notAttached hid => rw [hlookup] at hid; cases hid
      | alreadyPaused _ hs _ | allPaused _ hs _ => rw [hserver] at hs; cases hs
      | sendFromReady _ _ hs _ => rw [hstate] at hs; cases hs
      | sendFromPlaying _ _ hs => simp [hstate] at hs
      | wait _ _ _ =>
          refine ⟨hroster, ?_⟩
          rw [stage_of_missing hcomplete]
          exact ⟨hstate, hsent, hcommands⟩
  | true =>
      rw [hall] at hcomplete
      rw [(stage_of_complete hall).2 hready] at hreached
      obtain ⟨hstate, hsent, attached, hcommands⟩ := hreached
      cases hmove with
      | notAttached hid => rw [hlookup] at hid; cases hid
      | alreadyPaused _ hs _ | allPaused _ hs _ => rw [hserver] at hs; cases hs
      | sendFromReady _ _ _ hpaused =>
          refine ⟨hroster.of_sameSources ⟨rfl, rfl, rfl, rfl, rfl⟩, ?_⟩
          change Reached _ (c.setState k.id .awaitingPaused).stage
          rw [(stage_of_complete hcomplete).1 hpaused]
          exact ⟨rfl, hsent, attached, by simp [hcommands]⟩
      | sendFromPlaying _ _ hs => simp [hstate] at hs
      | wait _ _ hnot =>
          refine ⟨hroster, ?_⟩
          rw [(stage_of_complete hcomplete).2 (hnot.2.2 hstate)]
          exact ⟨hstate, hsent, attached, hcommands⟩

theorem progress_streamCollection {sources : List Source} {done : List Action} {c : Client}
    (h : Progress sources done c) :
    Progress sources (done ++ [.streamCollection])
      (c.handleStreamCollection (numberOf sources .audio) (numberOf sources .video)
        (numberOf sources .subtitle)).sendAllSourcesAttachedIfPossibleInternal := by
  have hroster := h.roster.streamCollection
  have hreached := h.reached
  cases hall : c.areAllStreamsAttached with
  | false =>
      rw [stage_of_missing hall] at hreached
      exact progress_sendAllSourcesAttached hroster ⟨hreached.1, hreached.2.1, hreached.2.2⟩
  -- All counts are known already, and the handshake was sent.
  | true =>
      have hknown : ∀ type, type ≠ .unknown → c.streams type ≠ unknownStreamsNumber := by
        intro type htype
        rw [← areAllStreamsAttached_eq_true_iff.mp hall type htype, Members.attachedSourcesOf,
          unknownStreamsNumber]
        omega
      have hsent : c.wasAllSourcesAttachedSent = true := by
        unfold Members.stage at hreached
        rw [if_pos hall] at hreached
        split at hreached <;> exact hreached.2.1
      have hsame : SameSources c.toMembers (c.handleStreamCollection (numberOf sources .audio)
          (numberOf sources .video) (numberOf sources .subtitle)).toMembers :=
        ⟨rfl, if_neg (hknown .audio (by simp)), if_neg (hknown .video (by simp)),
          if_neg (hknown .subtitle (by simp)), rfl⟩
      have hsilent : (c.handleStreamCollection (numberOf sources .audio) (numberOf sources .video)
          (numberOf sources .subtitle)).wasAllSourcesAttachedSent = true := hsent
      unfold Client.sendAllSourcesAttachedIfPossibleInternal
      rw [if_neg (by simp [hsilent])]
      refine ⟨hroster, ?_⟩
      rw [hsame.stage]
      exact ⟨hreached.1, hreached.2.1, hreached.2.2⟩

theorem progress_of_next {sources : List Source} {done : List Action} {c : Client} {a : Action}
    (hsources : Consistent sources) (h : Progress sources done c) (ha : Next sources done a) :
    ∃ d, machine.run c (a.events sources) = some d ∧ Progress sources (done ++ [a]) d := by
  cases ha with
  | handleStreamCollection hk hnew =>
      exact ⟨_, rfl, progress_handleStreamCollection hsources h hk hnew⟩
  | attachSource hk hnew hpause => exact ⟨_, rfl, progress_attachSource hsources h hk hnew hpause⟩
  | pause hk hattached hnew => exact ⟨_, rfl, progress_pause hsources h hk hattached hnew⟩
  | streamCollection => exact ⟨_, rfl, progress_streamCollection h⟩

/-! ## All actions -/

/-- What precedes one of the three actions of a source. -/
theorem split_actions {k : Source} {before after : List Action} {a : Action}
    (h : before ++ a :: after = [.handleStreamCollection k, .attachSource k, .pause k]) :
    (a = .handleStreamCollection k ∧ before = []) ∨
      (a = .attachSource k ∧ before = [.handleStreamCollection k]) ∨
      (a = .pause k ∧ before = [.handleStreamCollection k, .attachSource k]) := by
  rcases before with _ | ⟨b, _ | ⟨b', _ | ⟨b'', before⟩⟩⟩
  · exact .inl ⟨(List.cons.inj h).1, rfl⟩
  · simp only [List.cons_append, List.nil_append, List.cons.injEq] at h
    exact .inr (.inl ⟨h.2.1, by rw [h.1]⟩)
  · simp only [List.cons_append, List.nil_append, List.cons.injEq] at h
    exact .inr (.inr ⟨h.2.2.1, by rw [h.1, h.2.1]⟩)
  · simp at h

theorem mem_done_iff {done : List Action} {a : Action} {k : Source} (ha : a.source = some k) :
    a ∈ done ↔ a ∈ done.filter fun b ↦ b.source = some k := by
  simp [List.mem_filter, ha]

/-- The order of each source's actions, seen from one of them. -/
theorem next_of_interleaving {sources : List Source} {done rest : List Action} {a : Action}
    (h : Interleaving sources (done ++ a :: rest)) : Next sources done a := by
  cases hsource : a.source with
  | none =>
      cases a with
      | streamCollection => exact .streamCollection
      | handleStreamCollection k | attachSource k | pause k => cases hsource
  | some k =>
      have hk : k ∈ sources := h.known a (by simp) k hsource
      have horder := h.order k hk
      rw [List.filter_append, List.filter_cons_of_pos (by simp [hsource])] at horder
      rcases split_actions horder with ⟨rfl, hdone⟩ | ⟨rfl, hdone⟩ | ⟨rfl, hdone⟩
      · refine .handleStreamCollection hk fun hmem ↦ ?_
        rw [mem_done_iff (k := k) rfl, hdone] at hmem
        cases hmem
      · refine .attachSource hk (fun hmem ↦ ?_) fun hmem ↦ ?_
        · rw [mem_done_iff (k := k) rfl, hdone] at hmem
          simp at hmem
        · rw [mem_done_iff (k := k) rfl, hdone] at hmem
          simp at hmem
      · refine .pause hk ?_ fun hmem ↦ ?_
        · rw [mem_done_iff (k := k) rfl, hdone]
          simp
        · rw [mem_done_iff (k := k) rfl, hdone] at hmem
          simp at hmem

theorem progress_of_interleaving {sources : List Source} {actions : List Action}
    (hsources : Consistent sources) (hactions : Interleaving sources actions)
    {done rest : List Action} (hsplit : actions = done ++ rest) {c : Client}
    (h : Progress sources done c) :
    ∃ d, machine.run c (rest.flatMap (Action.events sources)) = some d ∧
      Progress sources actions d := by
  induction rest generalizing done c with
  | nil =>
      rw [List.append_nil] at hsplit
      exact ⟨c, rfl, hsplit ▸ h⟩
  | cons a rest ih =>
      obtain ⟨d, hrun, hd⟩ := progress_of_next hsources h (next_of_interleaving (hsplit ▸ hactions))
      obtain ⟨u, hrest, hu⟩ := ih (by simpa using hsplit) hd
      rw [List.flatMap_cons]
      exact ⟨u, machine.run_append_eq_some_iff.mpr ⟨d, hrun, hrest⟩, hu⟩

theorem progress_start (sources : List Source) : Progress sources [] {} := by
  refine ⟨⟨rfl, by simp, fun type _ ↦ .inr ⟨?_, by simp⟩⟩, ?_⟩
  · cases type <;> rfl
  · rw [stage_of_missing (by decide)]
    exact ⟨rfl, rfl, [], rfl⟩

/-- When all actions are done every source is attached, every count is known and
every source has asked for PAUSED. -/
theorem prerolled_of_progress {sources : List Source} {actions : List Action} {c : Client}
    (hsources : Consistent sources) (hactions : Interleaving sources actions)
    (h : Progress sources actions c) : Prerolled sources c := by
  have hall : ∀ k ∈ sources, .attachSource k ∈ actions ∧ .pause k ∈ actions := by
    intro k hk
    rw [mem_done_iff (a := .attachSource k) rfl, mem_done_iff (a := .pause k) rfl,
      hactions.order k hk]
    simp
  have hcollected : .streamCollection ∈ actions :=
    List.count_pos_iff.mp (by rw [hactions.collection]; exact Nat.one_pos)
  have hattached : ∀ id source, c.attachedSources.lookup id = some source ↔
      ∃ k ∈ sources, k.id = id ∧ source = { type := k.type, state := .awaitingPaused } := by
    intro id source
    rw [h.roster.attached]
    refine exists_congr fun k ↦ and_congr_right fun hk ↦ and_congr_right fun _ ↦ ?_
    rw [if_pos (hall k hk).2]
    exact and_iff_right (hall k hk).1
  have hcomplete : c.areAllStreamsAttached = true := by
    apply areAllStreamsAttached_eq_true_iff.mpr
    intro type htype
    rw [h.roster.attachedSourcesOf hsources,
      (h.roster.streams type htype).resolve_right fun hmissing ↦ hmissing.2 hcollected]
    refine congrArg _ (List.countP_congr fun k hk ↦ ?_)
    simp [(hall k hk).1]
  have hpaused : AllIn c.toMembers [.awaitingPaused] := by
    intro id source hsource
    obtain ⟨k, -, -, rfl⟩ := (hattached id source).mp hsource
    exact List.mem_singleton_self _
  have hreached := h.reached
  rw [(stage_of_complete hcomplete).1 hpaused] at hreached
  exact ⟨hreached.2.2, hreached.1, hattached⟩

/-- Every interleaving of the actions ends in the same preroll. -/
theorem prerolled_of_interleaving {sources : List Source} {actions : List Action}
    (hsources : Consistent sources) (hactions : Interleaving sources actions) :
    ∃ c, machine.run {} (actions.flatMap (Action.events sources)) = some c ∧
      Prerolled sources c := by
  obtain ⟨c, hrun, hc⟩ := progress_of_interleaving hsources hactions
    (List.nil_append actions).symm (progress_start sources)
  exact ⟨c, hrun, prerolled_of_progress hsources hactions hc⟩

/-- An audio source that knows nothing but itself, and a video source. -/
def audioAndVideo : List Source :=
  [⟨0, .audio, 1, -1, -1⟩, ⟨1, .video, 1, 1, 0⟩]

/-- The video source waits for PAUSED before the audio source is attached, and
the stream collection comes last but one. -/
def videoFirst : List Action :=
  [.handleStreamCollection ⟨1, .video, 1, 1, 0⟩, .attachSource ⟨1, .video, 1, 1, 0⟩,
    .handleStreamCollection ⟨0, .audio, 1, -1, -1⟩, .pause ⟨1, .video, 1, 1, 0⟩,
    .attachSource ⟨0, .audio, 1, -1, -1⟩, .streamCollection, .pause ⟨0, .audio, 1, -1, -1⟩]

theorem prerolled_of_interleaving_videoFirst :
    ∃ c, machine.run {} (videoFirst.flatMap (Action.events audioAndVideo)) = some c ∧
      Prerolled audioAndVideo c := by
  refine prerolled_of_interleaving ⟨by decide, by decide, ?_⟩ ⟨by decide, by decide, by decide⟩
  intro k hk type
  cases type <;> revert k <;> decide

end RialtoGStreamer.MediaPlayerClient
