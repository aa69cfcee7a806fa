import RialtoGStreamer.BufferParser.Protection
import RialtoGStreamer.MediaSources.Announced

/-!
# The source and its segments

`createMediaSource` and `parseBuffer` read the same caps, each for itself. What they
tell the server about the stream is the same; and caps that either of them fails for
are told apart here.
-/

namespace RialtoGStreamer.MediaSources

open BufferParser (GstStructure)

/-! ## Prefixes -/

/-- Of two prefixes of a string one is a prefix of the other. -/
theorem hasPrefix_of_hasPrefix {string start start' : String}
    (h : hasPrefix string start = true) (h' : hasPrefix string start' = true) :
    hasPrefix start start' = true ∨ hasPrefix start' start = true := by
  unfold hasPrefix at *
  rw [List.isPrefixOf_iff_prefix] at *
  rw [List.isPrefixOf_iff_prefix]
  exact (List.prefix_or_prefix_of_prefix h h').symm

/-- Two names that are no prefixes of each other do not begin the same string. -/
theorem not_hasPrefix (start' : String) {string start : String}
    (h : hasPrefix string start = true)
    (hne : (hasPrefix start start' || hasPrefix start' start) = false) :
    hasPrefix string start' = false := by
  cases h' : hasPrefix string start' with
  | false => rfl
  | true =>
      rw [Bool.or_eq_false_iff] at hne
      rcases hasPrefix_of_hasPrefix h h' with hprefix | hprefix
      · rw [hne.1] at hprefix
        cases hprefix
      · rw [hne.2] at hprefix
        cases hprefix

/-! ## Sources -/

/-- Unparsed opus caps. -/
def Unparsed (utils : OpusUtils) (s : CapsStructure) : Prop :=
  hasPrefix s.name "audio/x-opus" = true ∧ utils.parseCaps s = none

/-- Raw audio without a format. -/
def Unformatted (s : CapsStructure) : Prop :=
  (hasPrefix s.name "audio/b-wav" = true ∨ hasPrefix s.name "audio/x-raw" = true) ∧
    s.plain.getString "format" = none

theorem createMediaSource_unparsed {utils : OpusUtils} {s : CapsStructure}
    (h : Unparsed utils s) (delegate : Delegate) :
    createMediaSource .audio utils delegate (some s) = .ok none := by
  have hmpeg := not_hasPrefix "audio/mpeg" h.1 (by decide)
  have heac3 := not_hasPrefix "audio/x-eac3" h.1 (by decide)
  have hac3 := not_hasPrefix "audio/x-ac3" h.1 (by decide)
  unfold createMediaSource PullModeAudioPlaybackDelegate.createMediaSource
  simp [hmpeg, heac3, hac3, h.1, h.2]

theorem createMediaSource_unformatted {s : CapsStructure} (h : Unformatted s)
    (utils : OpusUtils) (delegate : Delegate) :
    createMediaSource .audio utils delegate (some s) = .error .constructedFromNull := by
  have hother : ∀ start ∈ ["audio/mpeg", "audio/x-eac3", "audio/x-ac3", "audio/x-opus"],
      hasPrefix s.name start = false := by
    intro start hstart
    rcases h.1 with hwav | hraw
    · exact not_hasPrefix start hwav (by revert start; decide)
    · exact not_hasPrefix start hraw (by revert start; decide)
  unfold createMediaSource PullModeAudioPlaybackDelegate.createMediaSource
  simp only [hother "audio/mpeg" (by decide), hother "audio/x-eac3" (by decide),
    hother "audio/x-ac3" (by decide), hother "audio/x-opus" (by decide), h.1, h.2,
    rialtoMseSinkConvertFormat]
  rfl

theorem createMediaSource_eq_error_iff {type : MediaType} {utils : OpusUtils}
    {delegate : Delegate} {s : CapsStructure} :
    createMediaSource type utils delegate (some s) = .error .constructedFromNull ↔
      type = .audio ∧ Unformatted s := by
  constructor
  · intro hresult
    have hcreates := creates type utils delegate s
    rw [hresult] at hcreates
    cases hcreates with
    | throws htype hname hformat => exact ⟨htype, hname, hformat⟩
  · rintro ⟨rfl, hunformatted⟩
    exact createMediaSource_unformatted hunformatted utils delegate

theorem createMediaSource_eq_none_iff {type : MediaType} {utils : OpusUtils}
    {delegate : Delegate} {s : CapsStructure} :
    createMediaSource type utils delegate (some s) = .ok none ↔
      type = .audio ∧ Unparsed utils s := by
  constructor
  · intro hresult
    have hcreates := creates type utils delegate s
    rw [hresult] at hcreates
    cases hcreates with
    | unparsed htype hname hparse => exact ⟨htype, hname, hparse⟩
  · rintro ⟨rfl, hunparsed⟩
    exact createMediaSource_unparsed hunparsed delegate

/-! ## Segments -/

theorem exists_protection (segment : BufferParser.MediaSegment)
    (protectionMeta : Option GstStructure) (size : ℕ) (caps : GstStructure) :
    ∃ protection, BufferParser.addProtectionMetadataToSegment segment protectionMeta size caps =
      some protection := by
  cases protectionMeta with
  | none => exact ⟨_, BufferParser.segment_of_clear rfl segment size caps⟩
  | some info =>
      by_cases hencrypted : info.getBoolean "encrypted" = some true
      · obtain ⟨metadata, hprocess, hreads⟩ := BufferParser.exists_reads hencrypted
        obtain ⟨e, he⟩ := BufferParser.exists_describes hreads
        exact ⟨_, BufferParser.segment_of_describes hprocess he segment size caps⟩
      · exact ⟨_, BufferParser.segment_of_clear (BufferParser.process_clear hencrypted) segment
          size caps⟩

@[simp] theorem addDisplayOffset_codecData (segment : MediaSegment) (displayOffset : UInt64) :
    (addDisplayOffsetToSegment segment displayOffset).codecData = segment.codecData := by
  unfold addDisplayOffsetToSegment
  split <;> rfl

@[simp] theorem addDisplayOffset_specificPart (segment : MediaSegment) (displayOffset : UInt64) :
    (addDisplayOffsetToSegment segment displayOffset).specificPart = segment.specificPart := by
  unfold addDisplayOffsetToSegment
  split <;> rfl

@[simp] theorem addCodecData_specificPart (segment : MediaSegment) (s : CapsStructure) :
    (addCodecDataToSegment segment s).specificPart = segment.specificPart := by
  unfold addCodecDataToSegment
  split
  · split <;> rfl
  · rfl
  · rfl

theorem addCodecData_codecData {segment : MediaSegment} (h : segment.codecData = none)
    (s : CapsStructure) : (addCodecDataToSegment segment s).codecData = getCodecData s := by
  unfold addCodecDataToSegment getCodecData
  cases s.field "codec_data" with
  | none => exact h
  | some value =>
      cases value with
      | plain value =>
          cases value with
          | buffer mapped =>
              cases mapped with
              | none => exact h
              | some data => rfl
          | string str => rfl
          | boolean value | int value | uint value => exact h
      | fraction numerator denominator | bitmask mask | array values => exact h

theorem parseBuffer_some (type : MediaType) (s : CapsStructure) (buffer : GstBuffer)
    (streamId : Int32) :
    ∃ segment, parseBuffer type (some s) buffer streamId = .ok (some segment) ∧
      segment.codecData = getCodecData s ∧
      segment.specificPart = (parseSpecificPartOfBuffer type buffer streamId s
        buffer.pts.toInt64 buffer.duration.toInt64).specificPart := by
  obtain ⟨protection, hprotection⟩ := exists_protection (addCodecDataToSegment
    { parseSpecificPartOfBuffer type buffer streamId s buffer.pts.toInt64
        buffer.duration.toInt64 with data := buffer.data } s).protection
    buffer.protectionMeta buffer.data.length s.plain
  unfold parseBuffer
  dsimp only at hprotection ⊢
  rw [hprotection]
  refine ⟨_, rfl, ?_, ?_⟩
  · rw [addDisplayOffset_codecData]
    exact addCodecData_codecData rfl s
  · rw [addDisplayOffset_specificPart]
    exact addCodecData_specificPart _ s

/-- The segment says of the stream what the source does. -/
def MediaSource.AgreesWith (source : MediaSource) (segment : MediaSegment) : Prop :=
  match source, segment.specificPart with
  | .audio source, .audio sampleRate numberOfChannels _ _ =>
      source.codecData = segment.codecData ∧ ∀ config ∈ source.audioConfig,
        source.mimeType = "audio/x-opus" ∨ (config.sampleRate = sampleRate.toUInt32 ∧
          config.numberOfChannels = numberOfChannels.toUInt32)
  | .video source, .video width height _ =>
      source.codecData = segment.codecData ∧ source.width = width ∧ source.height = height
  | .subtitle _, .subtitle => True
  | _, _ => False

theorem agreesWith_of_describes {source : MediaSource} {s : CapsStructure}
    (h : source.Describes s) (buffer : GstBuffer) (streamId : Int32) :
    ∃ segment, parseBuffer source.type (some s) buffer streamId = .ok (some segment) ∧
      source.AgreesWith segment := by
  obtain ⟨segment, hparse, hcodecData, hpart⟩ := parseBuffer_some source.type s buffer streamId
  refine ⟨segment, hparse, ?_⟩
  unfold MediaSource.AgreesWith
  rw [hpart, hcodecData]
  cases source with
  | audio source | video source | subtitle source => exact h

/-- Exactly for raw audio without a format `createMediaSource` makes an exception, and
exactly without caps or for opus that cannot be parsed it makes no source. The source
it makes otherwise agrees with each segment that is made with these caps. -/
theorem source_agrees_with_segments (type : MediaType) (utils : OpusUtils) (delegate : Delegate)
    (caps : Option CapsStructure) :
    (createMediaSource type utils delegate caps = .error .constructedFromNull ↔
        type = .audio ∧ ∃ s ∈ caps, Unformatted s) ∧
      (createMediaSource type utils delegate caps = .ok none ↔
        caps = none ∨ type = .audio ∧ ∃ s ∈ caps, Unparsed utils s) ∧
      ∀ source, createMediaSource type utils delegate caps = .ok (some source) →
        source.type = type ∧ ∀ buffer streamId, ∃ segment,
          parseBuffer type caps buffer streamId = .ok (some segment) ∧
            source.AgreesWith segment := by
  cases caps with
  | none =>
      have hnone : createMediaSource type utils delegate none = .ok none := by cases type <;> rfl
      rw [hnone]
      exact ⟨by simp, by simp, by rintro source ⟨⟩⟩
  | some s =>
      refine ⟨?_, ?_, fun source hresult ↦ ?_⟩
      · rw [createMediaSource_eq_error_iff]
        simp
      · rw [createMediaSource_eq_none_iff]
        simp
      · have hcreates := creates type utils delegate s
        rw [hresult] at hcreates
        cases hcreates with
        | source source htype hmime hdescribes =>
            refine ⟨htype, fun buffer streamId ↦ ?_⟩
            have hsegment := agreesWith_of_describes hdescribes buffer streamId
            rwa [htype] at hsegment

end RialtoGStreamer.MediaSources
