import Mathlib.Tactic.Linarith
import RialtoGStreamer.WebAudio.Sessions

/-!
# The caps of the web-audio stream

`open` reads the mime type and the PCM configuration from the first structure of
the caps. Strings of the caps are lists of bytes; the sample size is whatever
`strtoul` makes of the second and the third byte of the format.
-/

namespace RialtoGStreamer.WebAudio

open Library

variable {β : Type*}

/-- What `open` reads of the first `GstStructure` of the caps. -/
structure Caps where
  name : List UInt8
  format : Option (List UInt8) := none
  rate : Option Int32 := none
  channels : Option Int32 := none
  deriving DecidableEq

/-- The bytes of a string of ASCII characters. -/
def ascii (s : String) : List UInt8 :=
  s.toList.map Char.toUInt8

def isSpace (c : UInt8) : Bool :=
  c = 32 || (9 ≤ c && c ≤ 13)

def isDigit (c : UInt8) : Bool :=
  48 ≤ c && c ≤ 57

/-- The digits in front, as a decimal number. -/
def decimal (s : List UInt8) : ℕ :=
  (s.takeWhile isDigit).foldl (fun n c ↦ 10 * n + (c.toNat - 48)) 0

/-- `strtoul` in base 10; `none` stands for `ERANGE`. A minus sign negates the
number in the unsigned type. -/
def strtoul (s : List UInt8) : Option UInt64 :=
  let read (digits : List UInt8) : Option UInt64 :=
    if decimal digits < 2 ^ 64 then some (UInt64.ofNat (decimal digits)) else none
  match s.dropWhile isSpace with
  | 45 :: digits => (read digits).map (0 - ·)
  | 43 :: digits => read digits
  | digits => read digits

/-- The sample size, and whether samples are big endian, signed, floating point. -/
structure SampleFormat where
  sampleSize : UInt32
  isBigEndian : Bool
  isSigned : Bool
  isFloat : Bool
  deriving DecidableEq

def parseGstStructureFormat : List UInt8 → Option SampleFormat
  | [kind, first, second, third, fourth] =>
      match strtoul [first, second] with
      | none => none
      | some sampleSize =>
          let isBigEndian : Bool := [third, fourth] = ascii "BE"
          if [kind] = ascii "S" then some ⟨sampleSize.toUInt32, isBigEndian, true, false⟩
          else if [kind] = ascii "U" then some ⟨sampleSize.toUInt32, isBigEndian, false, false⟩
          else if [kind] = ascii "F" then some ⟨sampleSize.toUInt32, isBigEndian, false, true⟩
          else none
  | _ => none

/-- The name of the structure, up to the first space. -/
def Caps.mimeType (caps : Caps) : String :=
  String.ofList ((caps.name.takeWhile (· ≠ 32)).map fun c ↦ Char.ofNat c.toNat)

/-- The mime type and the configuration that `open` reads before it enters the
event loop, if it gets there. -/
def Caps.parse (caps : Caps) : Option (String × PcmConfig) :=
  match caps.format.getD [], caps.rate, caps.channels with
  | [], _, _ => none
  | format, some rate, some channels =>
      (parseGstStructureFormat format).map fun sample ↦
        (caps.mimeType,
          { rate := rate.toUInt32
            channels := channels.toUInt32
            sampleSize := sample.sampleSize
            isBigEndian := sample.isBigEndian
            isSigned := sample.isSigned
            isFloat := sample.isFloat })
  | _, _, _ => none

/-- `open` with its result; `created` is the result of `createWebAudioBackend`. -/
def State.openCaps (s : State β) (caps : Caps) (created : Bool) : State β × Bool :=
  match caps.parse with
  | none => (s, false)
  | some (mimeType, pcm) =>
      (s.openWith mimeType pcm created, (!s.isOpen || s.isNewConfig mimeType pcm) && created)

example : parseGstStructureFormat (ascii "S16LE") = some ⟨16, false, true, false⟩ := by decide

/-! ## The frame size -/

/-- The frame size is positive, and the product was neither cut nor wrapped. -/
structure UsableFrameSize (frameSize sampleSize : UInt32) (channels : Int32) : Prop where
  positive : 1 ≤ frameSize.toNat
  exact : (frameSize.toNat : ℤ) = sampleSize.toNat * channels.toInt / 8

theorem toNat_toUInt32 (x : Int32) :
    (x.toUInt32.toNat : ℤ) = if 0 ≤ x.toInt then x.toInt else x.toInt + 2 ^ 32 := by
  have hint : x.toInt = x.toBitVec.toInt := rfl
  have hlt := x.toBitVec.isLt
  rw [← Int32.toNat_toBitVec, hint, BitVec.toInt_eq_toNat_cond]
  split <;> split <;> omega

theorem usableFrameSize_iff (sampleSize : UInt32) (channels : Int32) :
    UsableFrameSize (sampleSize * channels.toUInt32 / 8) sampleSize channels ↔
      8 ≤ sampleSize.toNat * channels.toInt ∧ sampleSize.toNat * channels.toInt < 2 ^ 32 := by
  have hsize : (sampleSize * channels.toUInt32 / 8).toNat =
      sampleSize.toNat * channels.toUInt32.toNat % 2 ^ 32 / 8 := by
    rw [UInt32.toNat_div, UInt32.toNat_mul]
    rfl
  have hchannels := toNat_toUInt32 channels
  by_cases hsign : 0 ≤ channels.toInt
  · have hproduct : (sampleSize.toNat * channels.toInt : ℤ) =
        (sampleSize.toNat * channels.toUInt32.toNat : ℕ) := by
      rw [Nat.cast_mul, hchannels, if_pos hsign]
    rw [hproduct]
    constructor
    · rintro ⟨hpositive, hexact⟩
      rw [hproduct, hsize] at hexact
      rw [hsize] at hpositive
      omega
    · rintro ⟨hlow, hhigh⟩
      refine ⟨?_, ?_⟩
      · rw [hsize]
        omega
      · rw [hproduct, hsize]
        omega
  · -- A negative number of channels: the product is not positive.
    have hproduct : sampleSize.toNat * channels.toInt ≤ 0 :=
      Int.mul_nonpos_of_nonneg_of_nonpos (Int.natCast_nonneg _) (by omega)
    refine iff_of_false ?_ (by omega)
    rintro ⟨hpositive, hexact⟩
    omega

theorem parse_channels {caps : Caps} {mimeType : String} {pcm : PcmConfig}
    (h : caps.parse = some (mimeType, pcm)) :
    ∃ channels, caps.channels = some channels ∧ pcm.channels = channels.toUInt32 := by
  unfold Caps.parse at h
  split at h
  · cases h
  · next hchannels _ =>
      obtain ⟨sample, -, hpcm⟩ := Option.map_eq_some_iff.mp h
      obtain ⟨-, rfl⟩ := Prod.mk.inj hpcm
      exact ⟨_, hchannels, rfl⟩
  · cases h

/-- Where `open` returns true the frame size is the product of the configuration. -/
theorem frameSize_of_openCaps {s : State β} {caps : Caps} {created : Bool}
    (hopen : (s.openCaps caps created).2 = true) :
    ∃ mimeType pcm, caps.parse = some (mimeType, pcm) ∧
      (s.openCaps caps created).1.frameSize = pcm.frameSize := by
  unfold State.openCaps at hopen ⊢
  split at hopen
  · cases hopen
  · next mimeType pcm hparse =>
      refine ⟨mimeType, pcm, hparse, ?_⟩
      obtain ⟨hnew, rfl⟩ := Bool.and_eq_true_iff.mp hopen
      exact (frameSize_openWith s mimeType pcm true).trans (by simp [State.createdPlayer, hnew])

/-- CD audio. -/
def stereoCaps : Caps where
  name := ascii "audio/x-raw"
  format := some (ascii "S16LE")
  rate := some 44100
  channels := some 2

end RialtoGStreamer.WebAudio
