import Mathlib.Data.List.Nodup
import RialtoGStreamer.MediaSources.Model

/-!
# What is announced of an accepted stream

The pad of a sink accepts the caps of the mime types that the server supports, and
`createMediaSource` finds the mime type again in the caps of the stream. Both go by
the name of the structure, once from the one side and once from the other.
-/

namespace RialtoGStreamer.MediaSources

/-! ## The pad template -/

section Template

variable {α : Type*} [DecidableEq α]

/-- One round of the loop that adds the caps. -/
def appendNew (added : List α) (new : α) : List α :=
  if new ∈ added then added else added ++ [new]

theorem mem_appendNew {added : List α} {new x : α} :
    x ∈ appendNew added new ↔ x ∈ added ∨ x = new := by
  unfold appendNew
  split
  · next hmem => exact ⟨.inl, fun h ↦ h.elim id fun hx ↦ hx ▸ hmem⟩
  · rw [List.mem_append, List.mem_singleton]

theorem nodup_appendNew {added : List α} (h : added.Nodup) (new : α) :
    (appendNew added new).Nodup := by
  unfold appendNew
  split
  · exact h
  · next hnew =>
      rw [List.nodup_append]
      refine ⟨h, List.nodup_singleton new, ?_⟩
      rintro x hx y hy rfl
      exact hnew (List.mem_singleton.mp hy ▸ hx)

theorem mem_foldl_appendNew {news added : List α} {x : α} :
    x ∈ news.foldl appendNew added ↔ x ∈ added ∨ x ∈ news := by
  induction news generalizing added with
  | nil => simp
  | cons new news ih => rw [List.foldl_cons, ih, mem_appendNew, List.mem_cons, or_assoc]

theorem nodup_foldl_appendNew {news added : List α} (h : added.Nodup) :
    (news.foldl appendNew added).Nodup := by
  induction news generalizing added with
  | nil => exact h
  | cons new news ih => exact ih (nodup_appendNew h new)

end Template

theorem setupSupportedCaps_eq (supportedMimeTypes : List String) :
    rialtoMseSinkSetupSupportedCaps supportedMimeTypes =
      (supportedMimeTypes.flatMap capsOf).foldl appendNew [] :=
  (List.foldl_flatMap ..).symm

theorem mem_setupSupportedCaps {supportedMimeTypes : List String} {caps : SupportedCaps} :
    caps ∈ rialtoMseSinkSetupSupportedCaps supportedMimeTypes ↔
      ∃ mime ∈ supportedMimeTypes, caps ∈ capsOf mime := by
  rw [setupSupportedCaps_eq, mem_foldl_appendNew, List.mem_flatMap]
  exact or_iff_right List.not_mem_nil

/-- Caps of the template accept a structure with their name and, if they have one,
their `mpegversion`. -/
structure SupportedCaps.Accepts (caps : SupportedCaps) (s : CapsStructure) : Prop where
  name : s.name = caps.name
  mpegversion : ∀ version ∈ caps.mpegversion, s.plain.getInt "mpegversion" = some version

def Accepted (template : List SupportedCaps) (s : CapsStructure) : Prop :=
  ∃ caps ∈ template, caps.Accepts s

/-! ## The mime type -/

/-- What the mime types of a kind of sink begin with. -/
def MediaType.mimePrefix : MediaType → String
  | .audio => "audio/"
  | .video => "video/"
  | .subtitle => "text/"

/-- MPEG-1 layer 3. -/
def CapsStructure.isLayer3 (s : CapsStructure) : Bool :=
  1 = s.getInt "mpegversion" ∧ 3 = s.getInt "layer"

/-- The mime type that a sink announces for a structure. -/
def announcedMimeType (type : MediaType) (name : String) (isLayer3 : Bool) : String :=
  match type with
  | .audio =>
      if hasPrefix name "audio/mpeg" then if isLayer3 then "audio/mp3" else "audio/mp4"
      else if hasPrefix name "audio/x-eac3" ∨ hasPrefix name "audio/x-ac3" then "audio/x-eac3"
      else if hasPrefix name "audio/x-opus" then "audio/x-opus"
      else if hasPrefix name "audio/b-wav" then "audio/b-wav"
      else if hasPrefix name "audio/x-raw" then "audio/x-raw"
      else if hasPrefix name "audio/x-flac" then "audio/x-flac"
      else name
  | .video =>
      if hasPrefix name "video/x-h264" then "video/h264"
      else if hasPrefix name "video/x-h265" then "video/h265"
      else name
  | .subtitle => PullModeSubtitlePlaybackDelegate.subtitleMimeType name

theorem mpegMimeType_eq (s : CapsStructure) :
    PullModeAudioPlaybackDelegate.mpegMimeType s =
      if s.isLayer3 then "audio/mp3" else "audio/mp4" := by
  simp [PullModeAudioPlaybackDelegate.mpegMimeType, CapsStructure.isLayer3]

/-- What the source says of the stream is what the caps say. Opus has its rate and its
channels from elsewhere. -/
def MediaSource.Describes (s : CapsStructure) : MediaSource → Prop
  | .audio source =>
      source.codecData = getCodecData s ∧ ∀ config ∈ source.audioConfig,
        source.mimeType = "audio/x-opus" ∨
          (config.sampleRate = (s.getInt "rate").toUInt32 ∧
            config.numberOfChannels = (s.getInt "channels").toUInt32)
  | .video source =>
      source.codecData = getCodecData s ∧ source.width = s.getInt "width" ∧
        source.height = s.getInt "height"
  | .subtitle _ => True

/-- What `createMediaSource` comes to for a structure. -/
inductive Creates (type : MediaType) (utils : OpusUtils) (s : CapsStructure) :
    Except LogicError (Option MediaSource) → Prop
  | source (source : MediaSource) (htype : source.type = type)
      (hmime : source.mimeType = announcedMimeType type s.name s.isLayer3)
      (hdescribes : source.Describes s) : Creates type utils s (.ok (some source))
  | unparsed (htype : type = .audio) (hname : hasPrefix s.name "audio/x-opus")
      (hparse : utils.parseCaps s = none) : Creates type utils s (.ok none)
  | throws (htype : type = .audio)
      (hname : hasPrefix s.name "audio/b-wav" ∨ hasPrefix s.name "audio/x-raw")
      (hformat : s.plain.getString "format" = none) :
      Creates type utils s (.error .constructedFromNull)

theorem creates_audio (utils : OpusUtils) (delegate : Delegate) (s : CapsStructure) :
    Creates .audio utils s (createMediaSource .audio utils delegate (some s)) := by
  unfold createMediaSource PullModeAudioPlaybackDelegate.createMediaSource
  dsimp only
  split
  · next hcompressed =>
      split
      · next hmpeg =>
          refine .source _ rfl ?_ ⟨rfl, by rintro config ⟨⟩; exact .inr ⟨rfl, rfl⟩⟩
          simp [MediaSource.mimeType, announcedMimeType, hmpeg, mpegMimeType_eq]
      · next hmpeg =>
          refine .source _ rfl ?_ ⟨rfl, by rintro config ⟨⟩; exact .inr ⟨rfl, rfl⟩⟩
          simp [MediaSource.mimeType, announcedMimeType, hmpeg, hcompressed.resolve_left hmpeg]
  · next hcompressed =>
      rw [not_or] at hcompressed
      split
      · next hopus =>
          split
          · refine .source _ rfl ?_ ⟨rfl, fun _ _ ↦ .inl rfl⟩
            simp [MediaSource.mimeType, announcedMimeType, hcompressed, hopus]
          · next hparse => exact .unparsed rfl hopus hparse
      · next hopus =>
          split
          · next hraw =>
              cases hformat : s.plain.getString "format" with
              | none => exact .throws rfl hraw hformat
              | some format =>
                  refine .source _ rfl ?_ ⟨rfl, by rintro config ⟨⟩; exact .inr ⟨rfl, rfl⟩⟩
                  by_cases hwav : hasPrefix s.name "audio/b-wav"
                  · simp [MediaSource.mimeType, announcedMimeType, hcompressed, hopus, hwav]
                  · simp [MediaSource.mimeType, announcedMimeType, hcompressed, hopus, hwav,
                      hraw.resolve_left hwav]
          · next hraw =>
              rw [not_or] at hraw
              split
              · next hflac =>
                  refine .source _ rfl ?_ ⟨rfl, by rintro config ⟨⟩; exact .inr ⟨rfl, rfl⟩⟩
                  simp [MediaSource.mimeType, announcedMimeType, hcompressed, hopus, hraw, hflac]
              · next hflac =>
                  refine .source _ rfl ?_ ⟨rfl, by rintro config ⟨⟩⟩
                  simp [MediaSource.mimeType, announcedMimeType, hcompressed, hopus, hraw, hflac]

theorem creates_video (utils : OpusUtils) (delegate : Delegate) (s : CapsStructure) :
    Creates .video utils s (createMediaSource .video utils delegate (some s)) := by
  unfold createMediaSource PullModeVideoPlaybackDelegate.createMediaSource
  simp only [Option.map_some]
  split
  · next h264 =>
      refine .source _ rfl ?_ ⟨rfl, rfl, rfl⟩
      simp [MediaSource.mimeType, announcedMimeType, h264]
  · next h264 =>
      split
      · next h265 =>
          refine .source _ rfl ?_ ⟨rfl, rfl, rfl⟩
          simp [MediaSource.mimeType, announcedMimeType, h264, h265]
      · next h265 =>
          refine .source _ rfl ?_ ⟨rfl, rfl, rfl⟩
          simp [MediaSource.mimeType, announcedMimeType, h264, h265]

theorem creates (type : MediaType) (utils : OpusUtils) (delegate : Delegate) (s : CapsStructure) :
    Creates type utils s (createMediaSource type utils delegate (some s)) := by
  cases type with
  | audio => exact creates_audio utils delegate s
  | video => exact creates_video utils delegate s
  | subtitle => exact .source _ rfl rfl trivial

/-! ## The two ways agree -/

theorem mem_kMimeToCaps {mime : String} {caps : SupportedCaps} (h : caps ∈ capsOf mime) :
    (mime, capsOf mime) ∈ kMimeToCaps := by
  unfold capsOf at h ⊢
  cases hlookup : kMimeToCaps.lookup mime with
  | none =>
      rw [hlookup] at h
      exact absurd h List.not_mem_nil
  | some found =>
      obtain ⟨before, after, htable, -⟩ := List.lookup_eq_some_iff.mp hlookup
      rw [htable]
      exact List.mem_append_right _ List.mem_cons_self

/-- An entry of the table and the mime type that is announced for its caps. -/
structure Agrees (mime : String) (caps : SupportedCaps) (announced : String) : Prop where
  mem_capsOf : caps ∈ capsOf announced
  eq_or_mpeg : announced = mime ∨
    caps.name = "audio/mpeg" ∧ mime ∈ ["audio/mp4", "audio/mp3", "audio/aac"]

instance (mime : String) (caps : SupportedCaps) (announced : String) :
    Decidable (Agrees mime caps announced) :=
  decidable_of_iff (caps ∈ capsOf announced ∧ (announced = mime ∨
      caps.name = "audio/mpeg" ∧ mime ∈ ["audio/mp4", "audio/mp3", "audio/aac"]))
    ⟨fun h ↦ ⟨h.1, h.2⟩, fun h ↦ ⟨h.mem_capsOf, h.eq_or_mpeg⟩⟩

/-- Layer 3 is announced for version 1 alone. -/
theorem agrees_table (type : MediaType) : ∀ entry ∈ kMimeToCaps,
    hasPrefix entry.1 type.mimePrefix = true → ∀ caps ∈ entry.2, ∀ isLayer3 : Bool,
      (isLayer3 = true → caps.mpegversion ∈ [none, some 1]) →
        Agrees entry.1 caps (announcedMimeType type caps.name isLayer3) := by
  cases type <;> decide +kernel

/-- No name in the table has more behind one of these prefixes. -/
theorem name_of_prefix : ∀ entry ∈ kMimeToCaps, ∀ caps ∈ entry.2,
    ∀ start ∈ ["audio/x-opus", "audio/b-wav", "audio/x-raw"],
      hasPrefix caps.name start = true → caps.name = start := by
  decide +kernel

theorem isLayer3_of_accepts {caps : SupportedCaps} {s : CapsStructure} (h : caps.Accepts s)
    (hlayer : s.isLayer3 = true) : caps.mpegversion ∈ [none, some 1] := by
  cases hversion : caps.mpegversion with
  | none => exact List.mem_cons_self
  | some version =>
      have hone : 1 = s.getInt "mpegversion" := (of_decide_eq_true hlayer).1
      rw [CapsStructure.getInt, h.mpegversion version hversion] at hone
      rw [show version = 1 from hone.symm]
      exact List.mem_cons_of_mem _ List.mem_cons_self

/-- The mime type of the source stands for caps that accept the stream, and so does
one that is supported. The two are the same but for MPEG audio, of which three mime
types have caps in common. -/
def Announces (supportedMimeTypes : List String) (s : CapsStructure) (source : MediaSource) :
    Prop :=
  Accepted (capsOf source.mimeType) s ∧ ∃ mime ∈ supportedMimeTypes, Accepted (capsOf mime) s ∧
    (source.mimeType = mime ∨
      s.name = "audio/mpeg" ∧ mime ∈ ["audio/mp4", "audio/mp3", "audio/aac"])

/-- The template has the caps of the supported mime types, each once. Of a stream it
accepts, `createMediaSource` announces such a mime type, unless the opus header
cannot be read; and of raw audio without a format it makes an exception. -/
theorem announced_of_accepted (utils : OpusUtils) (delegate : Delegate) {type : MediaType}
    {supportedMimeTypes : List String}
    (hsupported : ∀ mime ∈ supportedMimeTypes, hasPrefix mime type.mimePrefix = true) :
    (rialtoMseSinkSetupSupportedCaps supportedMimeTypes).Nodup ∧
      (∀ caps, caps ∈ rialtoMseSinkSetupSupportedCaps supportedMimeTypes ↔
        ∃ mime ∈ supportedMimeTypes, caps ∈ capsOf mime) ∧
      ∀ s, Accepted (rialtoMseSinkSetupSupportedCaps supportedMimeTypes) s →
        match createMediaSource type utils delegate (some s) with
        | .ok (some source) => source.type = type ∧ Announces supportedMimeTypes s source
        | .ok none => s.name = "audio/x-opus" ∧ utils.parseCaps s = none
        | .error _ => (s.name = "audio/b-wav" ∨ s.name = "audio/x-raw") ∧
            s.plain.getString "format" = none := by
  refine ⟨?_, fun caps ↦ mem_setupSupportedCaps, fun s haccepted ↦ ?_⟩
  · rw [setupSupportedCaps_eq]
    exact nodup_foldl_appendNew List.nodup_nil
  · obtain ⟨caps, hcaps, haccepts⟩ := haccepted
    obtain ⟨mime, hmime, hcaps⟩ := mem_setupSupportedCaps.mp hcaps
    have htable := mem_kMimeToCaps hcaps
    have hname : ∀ start ∈ ["audio/x-opus", "audio/b-wav", "audio/x-raw"],
        hasPrefix s.name start = true → s.name = start := by
      rw [haccepts.name]
      exact name_of_prefix _ htable caps hcaps
    have hcreates := creates type utils delegate s
    generalize createMediaSource type utils delegate (some s) = result at hcreates
    cases hcreates with
    | source source htype hannounced hdescribes =>
        have hagrees := agrees_table type _ htable (hsupported mime hmime) caps hcaps s.isLayer3
          (isLayer3_of_accepts haccepts)
        rw [← haccepts.name, ← hannounced] at hagrees
        refine ⟨htype, ⟨caps, hagrees.mem_capsOf, haccepts⟩, mime, hmime,
          ⟨caps, hcaps, haccepts⟩, ?_⟩
        rw [haccepts.name]
        exact hagrees.eq_or_mpeg
    | unparsed htype hopus hparse => exact ⟨hname _ (by decide) hopus, hparse⟩
    | throws htype hraw hformat =>
        exact ⟨hraw.imp (hname _ (by decide)) (hname _ (by decide)), hformat⟩

/-- A stream of AAC. -/
def aacCaps : CapsStructure where
  name := "audio/mpeg"
  field
    | "mpegversion" => some (.plain (.int 4))
    | "rate" => some (.plain (.int 48000))
    | "channels" => some (.plain (.int 2))
    | _ => none

theorem announced_of_accepted_aac : ∃ source,
    createMediaSource .audio ⟨fun _ ↦ none, fun _ _ _ ↦ none⟩ ⟨false, ""⟩ (some aacCaps) =
        .ok (some source) ∧
      source.mimeType = "audio/mp4" ∧ Announces ["audio/x-opus", "audio/mp4"] aacCaps source := by
  have haccepted :
      Accepted (rialtoMseSinkSetupSupportedCaps ["audio/x-opus", "audio/mp4"]) aacCaps :=
    ⟨⟨"audio/mpeg", some 4⟩, by decide, rfl, by rintro version ⟨⟩; rfl⟩
  have hannounced := (@announced_of_accepted ⟨fun _ ↦ none, fun _ _ _ ↦ none⟩ ⟨false, ""⟩ .audio
    ["audio/x-opus", "audio/mp4"] (by decide)).2.2 aacCaps haccepted
  exact ⟨_, rfl, rfl, hannounced.2⟩

end RialtoGStreamer.MediaSources
