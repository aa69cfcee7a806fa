import Mathlib.Data.List.Basic

/-!
# The protection metadata of a buffer

`ProcessProtectionMetadata` reads the structure attached to an encrypted buffer,
field by field, and `addProtectionMetadataToSegment` copies what it read to the
segment that goes to the server.
-/

namespace RialtoGStreamer.BufferParser

/-- The value of a field. Of a buffer it is what mapping it gives, or `none` if it
cannot be mapped. -/
inductive GstValue where
  | boolean (value : Bool)
  | int (value : Int32)
  | uint (value : UInt32)
  | string (value : String)
  | buffer (mapped : Option (List UInt8))
  deriving DecidableEq

structure GstStructure where
  name : String
  field : String → Option GstValue

namespace GstStructure

def getBoolean (info : GstStructure) (fieldname : String) : Option Bool :=
  match info.field fieldname with
  | some (.boolean value) => some value
  | _ => none

def getInt (info : GstStructure) (fieldname : String) : Option Int32 :=
  match info.field fieldname with
  | some (.int value) => some value
  | _ => none

def getUint (info : GstStructure) (fieldname : String) : Option UInt32 :=
  match info.field fieldname with
  | some (.uint value) => some value
  | _ => none

def getString (info : GstStructure) (fieldname : String) : Option String :=
  match info.field fieldname with
  | some (.string value) => some value
  | _ => none

/-- The bytes of a buffer in a field, if there is one that can be mapped. -/
def getMappedBuffer (info : GstStructure) (fieldname : String) : Option (List UInt8) :=
  match info.field fieldname with
  | some (.buffer mapped) => mapped
  | _ => none

end GstStructure

inductive CipherMode where
  | unknown
  | cenc
  | cbc1
  | cens
  | cbcs
  deriving DecidableEq

structure BufferProtectionMetadata where
  encrypted : Bool := false
  mediaKeySessionId : Int32 := -1
  iv : List UInt8 := []
  kid : List UInt8 := []
  subsamples : List (UInt32 × UInt32) := []
  initWithLast15 : UInt32 := 0
  cipherMode : CipherMode := .unknown
  cryptBlocks : UInt32 := 0
  skipBlocks : UInt32 := 0
  encryptionPatternSet : Bool := false
  deriving DecidableEq

/-- `sizeof(int16_t) + sizeof(int32_t)`. -/
def subSampleSize : ℕ := 6

/-- The entry at an offset; `none` stands for a read behind the end. -/
def readSubSample (subSamples : List UInt8) (subSampleOffset : ℕ) : Option (UInt32 × UInt32) := do
  let b₀ ← subSamples[subSampleOffset]?
  let b₁ ← subSamples[subSampleOffset + 1]?
  let b₂ ← subSamples[subSampleOffset + 2]?
  let b₃ ← subSamples[subSampleOffset + 3]?
  let b₄ ← subSamples[subSampleOffset + 4]?
  let b₅ ← subSamples[subSampleOffset + 5]?
  let bytesOfClearData : UInt16 := b₀.toUInt16 <<< 8 ||| b₁.toUInt16
  let bytesOfEncryptedData : UInt32 :=
    b₂.toUInt32 <<< 24 ||| b₃.toUInt32 <<< 16 ||| b₄.toUInt32 <<< 8 ||| b₅.toUInt32
  return (bytesOfClearData.toUInt32, bytesOfEncryptedData)

/-- The loop over the entries, from an offset on. -/
def readSubSamples (subSamples : List UInt8) : ℕ → ℕ → Option (List (UInt32 × UInt32))
  | 0, _ => some []
  | remaining + 1, subSampleOffset => do
      let subSample ← readSubSample subSamples subSampleOffset
      let rest ← readSubSamples subSamples remaining (subSampleOffset + subSampleSize)
      return subSample :: rest

section Metadata

variable (info : GstStructure) (metadata : BufferProtectionMetadata)

def getEncryptedFromProtectionMetadata : BufferProtectionMetadata :=
  { metadata with encrypted := (info.getBoolean "encrypted").getD false }

def getMediaKeySessionIdFromProtectionMetadata : BufferProtectionMetadata :=
  { metadata with mediaKeySessionId := (info.getInt "mks_id").getD 0 }

def getKIDFromProtectionMetadata : BufferProtectionMetadata :=
  match info.getMappedBuffer "kid" with
  | some kid => { metadata with kid }
  | none => metadata

/-- `ivSize`: with `cbcs` the size of the constant initialization vector takes the
place of a missing or zero size. -/
def ivSize : UInt32 :=
  let size := (info.getUint "iv_size").getD 0
  if size = 0 ∧ info.getString "cipher-mode" = some "cbcs" then
    (info.getUint "constant_iv_size").getD size
  else size

def getIVFromProtectionMetadata : BufferProtectionMetadata :=
  match info.getMappedBuffer "iv" with
  | some iv => if (ivSize info).toNat = iv.length then { metadata with iv } else metadata
  | none => metadata

def getSubSamplesFromProtectionMetadata : Option BufferProtectionMetadata :=
  let subSampleCount := (info.getUint "subsample_count").getD 0
  if subSampleCount = 0 then some metadata
  else
    match info.getMappedBuffer "subsamples" with
    | none => some metadata
    | some subSamples =>
        if subSamples.length / subSampleSize = subSampleCount.toNat then
          (readSubSamples subSamples subSampleCount.toNat 0).map fun added ↦
            { metadata with subsamples := metadata.subsamples ++ added }
        else some metadata

def getInitWithLast15FromProtectionMetadata : BufferProtectionMetadata :=
  { metadata with initWithLast15 := (info.getUint "init_with_last_15").getD 0 }

def getEncryptionSchemeFromProtectionMetadata : BufferProtectionMetadata :=
  { metadata with
    cipherMode :=
      match info.getString "cipher-mode" with
      | some "cbcs" => .cbcs
      | some "cenc" => .cenc
      | some "cbc1" => .cbc1
      | some "cens" => .cens
      | _ => .unknown }

def getEncryptionPatternFromProtectionMetadata : BufferProtectionMetadata :=
  match info.getUint "crypt_byte_block" with
  | none => metadata
  | some cryptBlocks =>
      match info.getUint "skip_byte_block" with
      | none => { metadata with cryptBlocks }
      | some skipBlocks => { metadata with cryptBlocks, skipBlocks, encryptionPatternSet := true }

end Metadata

/-- `protectionMeta` is the structure attached to the buffer, if there is one. -/
def processProtectionMetadata (protectionMeta : Option GstStructure)
    (metadata : BufferProtectionMetadata) : Option BufferProtectionMetadata :=
  match protectionMeta with
  | none => some metadata
  | some info =>
      let metadata := getEncryptedFromProtectionMetadata info metadata
      if metadata.encrypted then do
        let metadata := getMediaKeySessionIdFromProtectionMetadata info metadata
        let metadata := getKIDFromProtectionMetadata info metadata
        let metadata := getIVFromProtectionMetadata info metadata
        let metadata ← getSubSamplesFromProtectionMetadata info metadata
        let metadata := getInitWithLast15FromProtectionMetadata info metadata
        let metadata := getEncryptionSchemeFromProtectionMetadata info metadata
        return getEncryptionPatternFromProtectionMetadata info metadata
      else some metadata

inductive EncryptionFormat where
  | clear
  | cenc
  | webm
  deriving DecidableEq

/-- What the metadata sets of a `MediaSegment`. -/
structure MediaSegment where
  encrypted : Bool := false
  mediaKeySessionId : Int32 := 0
  keyId : List UInt8 := []
  initVector : List UInt8 := []
  initWithLast15 : UInt32 := 0
  cipherMode : CipherMode := .unknown
  encryptionPattern : Option (UInt32 × UInt32) := none
  subSamples : List (UInt32 × UInt32) := []
  deriving DecidableEq

def encryptionFormat (mediaType : String) : EncryptionFormat :=
  if mediaType = "application/x-cenc" then .cenc
  else if mediaType = "application/x-webm-enc" then .webm
  else .clear

/-- The full-sample subsample for what comes without any. -/
def addFullSample (metadata : BufferProtectionMetadata) (format : EncryptionFormat) (size : ℕ) :
    BufferProtectionMetadata :=
  if (format = .webm ∨ format = .cenc) ∧ metadata.encrypted = true ∧
      metadata.subsamples.length = 0 then
    { metadata with subsamples := metadata.subsamples ++ [(0, UInt32.ofNat size)] }
  else metadata

/-- `size` is the size of the mapped buffer, which is cut to `uint32_t`; `none` is a
read behind the end of the subsample table. -/
def addProtectionMetadataToSegment (segment : MediaSegment) (protectionMeta : Option GstStructure)
    (size : ℕ) (caps : GstStructure) : Option MediaSegment := do
  let metadata ← processProtectionMetadata protectionMeta {}
  let metadata := addFullSample metadata (encryptionFormat caps.name) size
  if metadata.encrypted then
    return {
      encrypted := true
      mediaKeySessionId := metadata.mediaKeySessionId
      keyId := metadata.kid
      initVector := metadata.iv
      initWithLast15 := metadata.initWithLast15
      cipherMode := metadata.cipherMode
      encryptionPattern :=
        if metadata.encryptionPatternSet then some (metadata.cryptBlocks, metadata.skipBlocks)
        else segment.encryptionPattern
      subSamples := segment.subSamples ++ metadata.subsamples }
  else return segment

end RialtoGStreamer.BufferParser
