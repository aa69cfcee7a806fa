import RialtoGStreamer.BufferParser.Model

/-!
# Media sources

What the caps of a stream become: the `MediaSource` that is attached for it, the
caps that the pad of a sink accepts in the first place, and the segments that the
parser makes of its buffers. GStreamer gives `NULL` for the structure of missing
caps, and a string that is not there; a `std::string` made of it throws.
-/

namespace RialtoGStreamer.MediaSources

open BufferParser (GstValue GstStructure)

/-- A `std::string` is constructed from a null pointer. -/
inductive LogicError where
  | constructedFromNull
  deriving DecidableEq

/-- `g_str_has_prefix`. -/
def hasPrefix (string start : String) : Bool :=
  start.toList.isPrefixOf string.toList

/-- The value of a field of caps. -/
inductive CapsValue where
  | plain (value : GstValue)
  | fraction (numerator denominator : Int32)
  | bitmask (mask : UInt64)
  | array (values : List GstValue)
  deriving DecidableEq

/-- The first structure of caps. -/
structure CapsStructure where
  name : String
  field : String → Option CapsValue

namespace CapsStructure

/-- The structure as the accessors for plain values see it. -/
def plain (s : CapsStructure) : GstStructure where
  name := s.name
  field fieldname :=
    match s.field fieldname with
    | some (.plain value) => some value
    | _ => none

/-- A field that `gst_structure_get_int` leaves at 0 if it is not there. -/
def getInt (s : CapsStructure) (fieldname : String) : Int32 :=
  (s.plain.getInt fieldname).getD 0

def getFraction (s : CapsStructure) (fieldname : String) : Option (Int32 × Int32) :=
  match s.field fieldname with
  | some (.fraction numerator denominator) => some (numerator, denominator)
  | _ => none

/-- The bitmask in a field; any other value reads as 0. -/
def getBitmask (s : CapsStructure) (fieldname : String) : Option UInt64 :=
  (s.field fieldname).map fun
    | .bitmask mask => mask
    | _ => 0

end CapsStructure

/-! ## `GStreamerMSEUtils` -/

inductive Layout where
  | interleaved
  | nonInterleaved
  deriving DecidableEq

inductive Format where
  | s8 | u8
  | s16le | s16be | u16le | u16be
  | s24_32le | s24_32be | u24_32le | u24_32be
  | s32le | s32be | u32le | u32be
  | s24le | s24be | u24le | u24be
  | s20le | s20be | u20le | u20be
  | s18le | s18be | u18le | u18be
  | f32le | f32be | f64le | f64be
  deriving DecidableEq

inductive SegmentAlignment where
  | undefined
  | nal
  | au
  deriving DecidableEq

inductive StreamFormat where
  | undefined
  | raw
  | avc
  | byteStream
  | hvc1
  | hev1
  deriving DecidableEq

inductive CodecDataType where
  | buffer
  | string
  deriving DecidableEq

structure CodecData where
  data : List UInt8
  type : CodecDataType
  deriving DecidableEq

def rialtoMseSinkConvertLayout : Option String → Option Layout
  | some "interleaved" => some .interleaved
  | some "non-interleaved" => some .nonInterleaved
  | _ => none

def kStringToFormat : List (String × Format) :=
  [("S8", .s8), ("U8", .u8),
    ("S16LE", .s16le), ("S16BE", .s16be), ("U16LE", .u16le), ("U16BE", .u16be),
    ("S24_32LE", .s24_32le), ("S24_32BE", .s24_32be),
    ("U24_32LE", .u24_32le), ("U24_32BE", .u24_32be),
    ("S32LE", .s32le), ("S32BE", .s32be), ("U32LE", .u32le), ("U32BE", .u32be),
    ("S24LE", .s24le), ("S24BE", .s24be), ("U24LE", .u24le), ("U24BE", .u24be),
    ("S20LE", .s20le), ("S20BE", .s20be), ("U20LE", .u20le), ("U20BE", .u20be),
    ("S18LE", .s18le), ("S18BE", .s18be), ("U18LE", .u18le), ("U18BE", .u18be),
    ("F32LE", .f32le), ("F32BE", .f32be), ("F64LE", .f64le), ("F64BE", .f64be)]

/-- The key that is looked up is made of the string, which may be missing. -/
def rialtoMseSinkConvertFormat : Option String → Except LogicError (Option Format)
  | none => .error .constructedFromNull
  | some formatStr => .ok (kStringToFormat.lookup formatStr)

def getCodecData (s : CapsStructure) : Option CodecData :=
  match s.field "codec_data" with
  | some (.plain (.buffer (some data))) => some ⟨data, .buffer⟩
  | some (.plain (.string str)) => some ⟨str.toUTF8.data.toList, .string⟩
  | _ => none

def getSegmentAlignment (s : CapsStructure) : SegmentAlignment :=
  match s.plain.getString "alignment" with
  | some "au" => .au
  | some "nal" => .nal
  | _ => .undefined

/-- The profile, if it is reported at all. -/
def getDvProfile (s : CapsStructure) : Option UInt32 :=
  if s.plain.getBoolean "dovi-stream" = some true then s.plain.getUint "dv_profile" else none

def getStreamFormat (s : CapsStructure) : StreamFormat :=
  match s.plain.getString "stream-format" with
  | some "raw" => .raw
  | some "avc" => .avc
  | some "byte-stream" => .byteStream
  | some "hvc1" => .hvc1
  | some "hev1" => .hev1
  | _ => .undefined

/-- A caps string of `kMimeToCaps`: a name, with `mpegversion` or without. -/
structure SupportedCaps where
  name : String
  mpegversion : Option Int32 := none
  deriving DecidableEq

def kMimeToCaps : List (String × List SupportedCaps) :=
  [("audio/mp4", [⟨"audio/mpeg", some 1⟩, ⟨"audio/mpeg", some 2⟩, ⟨"audio/mpeg", some 4⟩]),
    ("audio/mp3", [⟨"audio/mpeg", some 1⟩, ⟨"audio/mpeg", some 2⟩]),
    ("audio/aac", [⟨"audio/mpeg", some 2⟩, ⟨"audio/mpeg", some 4⟩]),
    ("audio/x-eac3", [⟨"audio/x-ac3", none⟩, ⟨"audio/x-eac3", none⟩]),
    ("audio/x-opus", [⟨"audio/x-opus", none⟩]),
    ("audio/b-wav", [⟨"audio/b-wav", none⟩]),
    ("audio/x-flac", [⟨"audio/x-flac", none⟩]),
    ("audio/x-raw", [⟨"audio/x-raw", none⟩]),
    ("video/h264", [⟨"video/x-h264", none⟩]),
    ("video/h265", [⟨"video/x-h265", none⟩]),
    ("video/x-av1", [⟨"video/x-av1", none⟩]),
    ("video/x-vp9", [⟨"video/x-vp9", none⟩]),
    ("text/vtt", [⟨"text/vtt", none⟩, ⟨"application/x-subtitle-vtt", none⟩]),
    ("text/ttml", [⟨"application/ttml+xml", none⟩]),
    ("text/cc",
      [⟨"closedcaption/x-cea-608", none⟩, ⟨"closedcaption/x-cea-708", none⟩,
        ⟨"application/x-cea-608", none⟩, ⟨"application/x-cea-708", none⟩,
        ⟨"application/x-subtitle-cc", none⟩])]

/-- The caps of a mime type; there are none of one that is not in the table. -/
def capsOf (mime : String) : List SupportedCaps :=
  (kMimeToCaps.lookup mime).getD []

/-- The inner loop: caps that were added before are not added again. -/
def addCaps (caps : List SupportedCaps) (mime : String) : List SupportedCaps :=
  (capsOf mime).foldl (fun caps newCaps ↦ if newCaps ∈ caps then caps else caps ++ [newCaps]) caps

/-- The caps of the pad template. -/
def rialtoMseSinkSetupSupportedCaps (supportedMimeTypes : List String) : List SupportedCaps :=
  supportedMimeTypes.foldl addCaps []

/-! ## `createMediaSource` -/

structure AudioConfig where
  numberOfChannels : UInt32
  sampleRate : UInt32
  codecSpecificConfig : List UInt8 := []
  format : Option Format := none
  layout : Option Layout := none
  channelMask : Option UInt64 := none
  streamHeader : List (List UInt8) := []
  framed : Option Bool := none
  deriving DecidableEq

/-- No `audioConfig` stands for one with nothing set. -/
structure MediaSourceAudio where
  mimeType : String
  hasDrm : Bool
  audioConfig : Option AudioConfig
  alignment : SegmentAlignment
  streamFormat : StreamFormat
  codecData : Option CodecData
  deriving DecidableEq

/-- It is a `MediaSourceVideoDolbyVision` if it has a profile. -/
structure MediaSourceVideo where
  mimeType : String
  dolbyVisionProfile : Option UInt32
  hasDrm : Bool
  width : Int32
  height : Int32
  alignment : SegmentAlignment
  streamFormat : StreamFormat
  codecData : Option CodecData
  deriving DecidableEq

structure MediaSourceSubtitle where
  mimeType : String
  textTrackIdentifier : String
  deriving DecidableEq

inductive MediaSource where
  | audio (source : MediaSourceAudio)
  | video (source : MediaSourceVideo)
  | subtitle (source : MediaSourceSubtitle)
  deriving DecidableEq

/-- The three kinds of sinks. Each has its own delegate, and `attachSource` chooses
the parser of a source by it. -/
inductive MediaType where
  | audio
  | video
  | subtitle
  deriving DecidableEq

def MediaSource.type : MediaSource → MediaType
  | .audio _ => .audio
  | .video _ => .video
  | .subtitle _ => .subtitle

def MediaSource.mimeType : MediaSource → String
  | .audio source => source.mimeType
  | .video source => source.mimeType
  | .subtitle source => source.mimeType

/-- The members of the delegates that the source depends on. -/
structure Delegate where
  hasDrm : Bool
  textTrackIdentifier : String

structure OpusCaps where
  sampleRate : UInt32
  numberOfChannels : UInt8
  channelMappingFamily : UInt8
  streams : UInt8
  stereoStreams : UInt8
  channelMapping : List UInt8
  deriving DecidableEq

/-- `gst_codec_utils_opus_parse_caps`, which may fail, and
`gst_codec_utils_opus_create_header` with the bytes of its buffer, if that can be
mapped. -/
structure OpusUtils where
  parseCaps : CapsStructure → Option OpusCaps
  createHeader : OpusCaps → (preSkip : UInt16) → (gain : Int16) → Option (List UInt8)

/-- The buffers of `streamheader` that can be mapped. -/
def streamHeaderVec (s : CapsStructure) : List (List UInt8) :=
  match s.field "streamheader" with
  | some (.array values) => values.filterMap fun
      | .buffer mapped => mapped
      | _ => none
  | _ => []

namespace PullModeAudioPlaybackDelegate

/-- The configuration that `rate` and `channels` make. -/
def rateAndChannels (s : CapsStructure) : AudioConfig where
  numberOfChannels := (s.getInt "channels").toUInt32
  sampleRate := (s.getInt "rate").toUInt32

def mpegMimeType (s : CapsStructure) : String :=
  if 1 = s.getInt "mpegversion" ∧ 3 = s.getInt "layer" then "audio/mp3" else "audio/mp4"

/-- Without a stream header the identification header is made from the caps. -/
def opusConfig (utils : OpusUtils) (s : CapsStructure) (opus : OpusCaps) : AudioConfig where
  numberOfChannels := opus.numberOfChannels.toUInt32
  sampleRate := opus.sampleRate
  codecSpecificConfig :=
    match streamHeaderVec s with
    | header :: _ => header
    | [] => (utils.createHeader opus 0 0).getD []

def createMediaSource (utils : OpusUtils) (delegate : Delegate) (caps : Option CapsStructure) :
    Except LogicError (Option MediaSource) :=
  match caps with
  | none => .ok none
  | some s =>
      let create (mimeType : String) (audioConfig : Option AudioConfig) : Option MediaSource :=
        some (.audio {
          mimeType, audioConfig
          hasDrm := delegate.hasDrm
          alignment := getSegmentAlignment s
          streamFormat := getStreamFormat s
          codecData := getCodecData s })
      if hasPrefix s.name "audio/mpeg" ∨ hasPrefix s.name "audio/x-eac3" ∨
          hasPrefix s.name "audio/x-ac3" then
        if hasPrefix s.name "audio/mpeg" then
          .ok (create (mpegMimeType s) (rateAndChannels s))
        else .ok (create "audio/x-eac3" (rateAndChannels s))
      else if hasPrefix s.name "audio/x-opus" then
        match utils.parseCaps s with
        | some opus => .ok (create "audio/x-opus" (opusConfig utils s opus))
        | none => .ok none
      else if hasPrefix s.name "audio/b-wav" ∨ hasPrefix s.name "audio/x-raw" then do
        let format ← rialtoMseSinkConvertFormat (s.plain.getString "format")
        let mimeType := if hasPrefix s.name "audio/b-wav" then "audio/b-wav" else "audio/x-raw"
        return create mimeType (some { rateAndChannels s with
          format
          layout := rialtoMseSinkConvertLayout (s.plain.getString "layout")
          channelMask := s.getBitmask "channel-mask" })
      else if hasPrefix s.name "audio/x-flac" then
        .ok (create "audio/x-flac" (some { rateAndChannels s with
          streamHeader := streamHeaderVec s
          framed := s.plain.getBoolean "framed" }))
      else .ok (create s.name none)

end PullModeAudioPlaybackDelegate

namespace PullModeVideoPlaybackDelegate

def createMediaSource (delegate : Delegate) (caps : Option CapsStructure) : Option MediaSource :=
  caps.map fun s ↦
    let create (mimeType : String) (dolbyVisionProfile : Option UInt32) : MediaSource :=
      .video {
        mimeType, dolbyVisionProfile
        hasDrm := delegate.hasDrm
        width := s.getInt "width"
        height := s.getInt "height"
        alignment := getSegmentAlignment s
        streamFormat := getStreamFormat s
        codecData := getCodecData s }
    if hasPrefix s.name "video/x-h264" then create "video/h264" none
    else if hasPrefix s.name "video/x-h265" then create "video/h265" (getDvProfile s)
    else create s.name none

end PullModeVideoPlaybackDelegate

namespace PullModeSubtitlePlaybackDelegate

def subtitleMimeType (mimeName : String) : String :=
  if hasPrefix mimeName "text/vtt" ∨ hasPrefix mimeName "application/x-subtitle-vtt" then
    "text/vtt"
  else if hasPrefix mimeName "application/ttml+xml" then "text/ttml"
  else if hasPrefix mimeName "closedcaption/x-cea-608" ∨
      hasPrefix mimeName "closedcaption/x-cea-708" ∨
      hasPrefix mimeName "application/x-cea-608" ∨
      hasPrefix mimeName "application/x-cea-708" ∨
      hasPrefix mimeName "application/x-subtitle-cc" then "text/cc"
  else mimeName

def createMediaSource (delegate : Delegate) (caps : Option CapsStructure) : Option MediaSource :=
  caps.map fun s ↦ .subtitle {
    mimeType := subtitleMimeType s.name
    textTrackIdentifier := delegate.textTrackIdentifier }

end PullModeSubtitlePlaybackDelegate

/-- `createMediaSource` of the delegate of a sink. -/
def createMediaSource (type : MediaType) (utils : OpusUtils) (delegate : Delegate)
    (caps : Option CapsStructure) : Except LogicError (Option MediaSource) :=
  match type with
  | .audio => PullModeAudioPlaybackDelegate.createMediaSource utils delegate caps
  | .video => .ok (PullModeVideoPlaybackDelegate.createMediaSource delegate caps)
  | .subtitle => .ok (PullModeSubtitlePlaybackDelegate.createMediaSource delegate caps)

/-! ## `BufferParser` -/

/-- What the parser reads of a buffer; `data` is what mapping it gives. -/
structure GstBuffer where
  pts : UInt64
  duration : UInt64
  offset : UInt64
  data : List UInt8
  audioClippingMeta : Option (UInt64 × UInt64)
  protectionMeta : Option GstStructure

/-- What a segment has on top for audio and for video. -/
inductive SpecificPart where
  | audio (sampleRate numberOfChannels : Int32) (clippingStart clippingEnd : UInt64)
  | video (width height : Int32) (frameRate : Option (Int32 × Int32))
  | subtitle
  deriving DecidableEq

structure MediaSegment where
  streamId : Int32
  timeStamp : Int64
  duration : Int64
  specificPart : SpecificPart
  data : List UInt8 := []
  codecData : Option CodecData := none
  protection : BufferParser.MediaSegment := {}
  displayOffset : Option UInt64 := none
  deriving DecidableEq

/-- `parseSpecificPartOfBuffer` of the three parsers. -/
def parseSpecificPartOfBuffer (type : MediaType) (buffer : GstBuffer) (streamId : Int32)
    (s : CapsStructure) (timeStamp duration : Int64) : MediaSegment where
  streamId := streamId
  timeStamp := timeStamp
  duration := duration
  specificPart :=
    match type with
    | .audio =>
        let clipping := buffer.audioClippingMeta.getD (0, 0)
        .audio (s.getInt "rate") (s.getInt "channels") clipping.1 clipping.2
    | .video => .video (s.getInt "width") (s.getInt "height") (s.getFraction "framerate")
    | .subtitle => .subtitle

def addCodecDataToSegment (segment : MediaSegment) (s : CapsStructure) : MediaSegment :=
  match s.field "codec_data" with
  | some (.plain (.buffer mapped)) =>
      match mapped with
      | some data => { segment with codecData := some ⟨data, .buffer⟩ }
      | none => segment
  | some (.plain (.string str)) =>
      { segment with codecData := some ⟨str.toUTF8.data.toList, .string⟩ }
  | _ => segment

/-- `GST_BUFFER_OFFSET_NONE`. -/
def bufferOffsetNone : UInt64 := 0xffffffffffffffff

def addDisplayOffsetToSegment (segment : MediaSegment) (displayOffset : UInt64) : MediaSegment :=
  if bufferOffsetNone ≠ displayOffset then { segment with displayOffset := some displayOffset }
  else segment

/-- `parseBuffer` of a sample with these caps. The name of the structure becomes a
string when the protection metadata is read; `none` would be a read behind the end
of the subsample table. -/
def parseBuffer (type : MediaType) (caps : Option CapsStructure) (buffer : GstBuffer)
    (streamId : Int32) : Except LogicError (Option MediaSegment) :=
  match caps with
  | none => .error .constructedFromNull
  | some s =>
      let segment := parseSpecificPartOfBuffer type buffer streamId s
        buffer.pts.toInt64 buffer.duration.toInt64
      let segment := addCodecDataToSegment { segment with data := buffer.data } s
      .ok ((BufferParser.addProtectionMetadataToSegment segment.protection buffer.protectionMeta
        buffer.data.length s.plain).map fun protection ↦
          addDisplayOffsetToSegment { segment with protection } buffer.offset)

end RialtoGStreamer.MediaSources
