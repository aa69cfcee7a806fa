import RialtoGStreamer.BufferParser.SubSamples

/-!
# What the protection metadata describes

A description says how a sample is encrypted. Written into the structure that is
attached to the buffer, it reaches the segment whole; and whatever structure is
attached, the segment gets a description or nothing at all.
-/

namespace RialtoGStreamer.BufferParser

open Library

/-- How a sample is encrypted: the session and the key, the initialization vector,
which is one for all blocks if `constantIv`, the subsamples and the scheme. -/
structure Encryption where
  mediaKeySessionId : Int32
  kid : List UInt8
  iv : List UInt8
  constantIv : Bool := false
  subsamples : List (UInt16 × UInt32)
  initWithLast15 : UInt32
  cipherMode : CipherMode
  pattern : Option (UInt32 × UInt32)
  iv_fits : iv.length < 2 ^ 32
  subsamples_fit : subsamples.length < 2 ^ 32
  constantIv_cbcs : constantIv = true → cipherMode = .cbcs

def CipherMode.name : CipherMode → Option String
  | .unknown => none
  | .cenc => some "cenc"
  | .cbc1 => some "cbc1"
  | .cens => some "cens"
  | .cbcs => some "cbcs"

namespace Encryption

/-- The field of the size of the initialization vector. -/
def size (e : Encryption) : GstValue :=
  .uint (UInt32.ofNat e.iv.length)

/-- The structure that describes the encryption. -/
def write (e : Encryption) : GstStructure where
  name := "application/x-cenc"
  field
    | "encrypted" => some (.boolean true)
    | "mks_id" => some (.int e.mediaKeySessionId)
    | "kid" => some (.buffer (some e.kid))
    | "iv_size" => if e.constantIv then none else some e.size
    | "constant_iv_size" => if e.constantIv then some e.size else none
    | "iv" => some (.buffer (some e.iv))
    | "subsample_count" => some (.uint (UInt32.ofNat e.subsamples.length))
    | "subsamples" => some (.buffer (some (e.subsamples.flatMap encodeSubSample)))
    | "init_with_last_15" => some (.uint e.initWithLast15)
    | "cipher-mode" => e.cipherMode.name.map .string
    | "crypt_byte_block" => e.pattern.map (.uint ·.1)
    | "skip_byte_block" => e.pattern.map (.uint ·.2)
    | _ => none

/-- The subsamples of the segment; a sample without any is encrypted as a whole. -/
def partition (e : Encryption) (size : ℕ) (caps : GstStructure) : List (UInt32 × UInt32) :=
  if encryptionFormat caps.name ≠ .clear ∧ e.subsamples = [] then [(0, UInt32.ofNat size)]
  else e.subsamples.map fun p ↦ (p.1.toUInt32, p.2)

/-- The segment of a sample that is encrypted in this way. -/
def encrypt (e : Encryption) (segment : MediaSegment) (size : ℕ) (caps : GstStructure) :
    MediaSegment where
  encrypted := true
  mediaKeySessionId := e.mediaKeySessionId
  keyId := e.kid
  initVector := e.iv
  initWithLast15 := e.initWithLast15
  cipherMode := e.cipherMode
  encryptionPattern := e.pattern.or segment.encryptionPattern
  subSamples := segment.subSamples ++ e.partition size caps

end Encryption

/-! ## What is read -/

def readKid (info : GstStructure) : List UInt8 :=
  (info.getMappedBuffer "kid").getD []

def readIv (info : GstStructure) : List UInt8 :=
  match info.getMappedBuffer "iv" with
  | some iv => if (ivSize info).toNat = iv.length then iv else []
  | none => []

def readCipherMode (info : GstStructure) : CipherMode :=
  (getEncryptionSchemeFromProtectionMetadata info {}).cipherMode

def readPattern (info : GstStructure) : Option (UInt32 × UInt32) :=
  (info.getUint "crypt_byte_block").bind fun cryptBlocks ↦
    (info.getUint "skip_byte_block").map fun skipBlocks ↦ (cryptBlocks, skipBlocks)

/-- The pattern as `addProtectionMetadataToSegment` looks at it. -/
def BufferProtectionMetadata.pattern (metadata : BufferProtectionMetadata) :
    Option (UInt32 × UInt32) :=
  if metadata.encryptionPatternSet then some (metadata.cryptBlocks, metadata.skipBlocks) else none

/-- The metadata holds what is read from the structure. -/
structure Reads (info : GstStructure) (metadata : BufferProtectionMetadata) : Prop where
  encrypted : metadata.encrypted = true
  mediaKeySessionId : metadata.mediaKeySessionId = (info.getInt "mks_id").getD 0
  kid : metadata.kid = readKid info
  iv : metadata.iv = readIv info
  subsamples : metadata.subsamples = info.declared
  initWithLast15 : metadata.initWithLast15 = (info.getUint "init_with_last_15").getD 0
  cipherMode : metadata.cipherMode = readCipherMode info
  pattern : metadata.pattern = readPattern info

theorem getKID_eq (info : GstStructure) {metadata : BufferProtectionMetadata}
    (hkid : metadata.kid = []) :
    getKIDFromProtectionMetadata info metadata = { metadata with kid := readKid info } := by
  unfold getKIDFromProtectionMetadata readKid
  cases info.getMappedBuffer "kid" with
  | none =>
      rw [Option.getD_none, ← hkid]
  | some kid => rfl

theorem getIV_eq (info : GstStructure) {metadata : BufferProtectionMetadata}
    (hiv : metadata.iv = []) :
    getIVFromProtectionMetadata info metadata = { metadata with iv := readIv info } := by
  unfold getIVFromProtectionMetadata readIv
  cases info.getMappedBuffer "iv" with
  | none => simp only [← hiv]
  | some iv =>
      dsimp only
      split
      · rfl
      · rw [← hiv]

theorem pattern_getEncryptionPattern (info : GstStructure) {metadata : BufferProtectionMetadata}
    (hunset : metadata.encryptionPatternSet = false) :
    (getEncryptionPatternFromProtectionMetadata info metadata).pattern = readPattern info := by
  unfold getEncryptionPatternFromProtectionMetadata readPattern
  cases info.getUint "crypt_byte_block" with
  | none => simp [BufferProtectionMetadata.pattern, hunset]
  | some cryptBlocks =>
      cases info.getUint "skip_byte_block" with
      | none => simp [BufferProtectionMetadata.pattern, hunset]
      | some skipBlocks => rfl

/-- The pattern is read last, and nothing else is touched. -/
theorem reads_getEncryptionPattern {info : GstStructure} {metadata : BufferProtectionMetadata}
    (hunset : metadata.encryptionPatternSet = false) (hencrypted : metadata.encrypted = true)
    (hsession : metadata.mediaKeySessionId = (info.getInt "mks_id").getD 0)
    (hkid : metadata.kid = readKid info) (hiv : metadata.iv = readIv info)
    (hsubsamples : metadata.subsamples = info.declared)
    (hlast : metadata.initWithLast15 = (info.getUint "init_with_last_15").getD 0)
    (hmode : metadata.cipherMode = readCipherMode info) :
    Reads info (getEncryptionPatternFromProtectionMetadata info metadata) := by
  have hpattern := pattern_getEncryptionPattern info hunset
  unfold getEncryptionPatternFromProtectionMetadata at hpattern ⊢
  cases hcrypt : info.getUint "crypt_byte_block" with
  | none =>
      rw [hcrypt] at hpattern
      exact ⟨hencrypted, hsession, hkid, hiv, hsubsamples, hlast, hmode, hpattern⟩
  | some cryptBlocks =>
      cases hskip : info.getUint "skip_byte_block" with
      | none | some skipBlocks =>
          rw [hcrypt, hskip] at hpattern
          exact ⟨hencrypted, hsession, hkid, hiv, hsubsamples, hlast, hmode, hpattern⟩

/-- Of an encrypted sample everything is read. -/
theorem exists_reads {info : GstStructure} (h : info.getBoolean "encrypted" = some true) :
    ∃ metadata, processProtectionMetadata (some info) {} = some metadata ∧
      Reads info metadata := by
  have hencrypted : getEncryptedFromProtectionMetadata info {} = { encrypted := true } := by
    rw [getEncryptedFromProtectionMetadata, h]
    rfl
  unfold processProtectionMetadata
  simp only [hencrypted, if_true]
  rw [getKID_eq info rfl, getIV_eq info rfl, getSubSamples_eq]
  exact ⟨_, rfl, reads_getEncryptionPattern rfl rfl rfl rfl rfl rfl rfl rfl⟩

theorem process_clear {info : GstStructure} (h : info.getBoolean "encrypted" ≠ some true) :
    processProtectionMetadata (some info) {} = some {} := by
  have hclear : getEncryptedFromProtectionMetadata info {} = {} := by
    unfold getEncryptedFromProtectionMetadata
    cases hencrypted : info.getBoolean "encrypted" with
    | none => rfl
    | some encrypted =>
        cases encrypted with
        | true => exact absurd hencrypted h
        | false => rfl
  unfold processProtectionMetadata
  simp [hclear]

/-- What is read and what is described agree. -/
structure Describes (e : Encryption) (metadata : BufferProtectionMetadata) : Prop where
  encrypted : metadata.encrypted = true
  mediaKeySessionId : metadata.mediaKeySessionId = e.mediaKeySessionId
  kid : metadata.kid = e.kid
  iv : metadata.iv = e.iv
  subsamples : metadata.subsamples = e.subsamples.map fun p ↦ (p.1.toUInt32, p.2)
  initWithLast15 : metadata.initWithLast15 = e.initWithLast15
  cipherMode : metadata.cipherMode = e.cipherMode
  pattern : metadata.pattern = e.pattern

theorem addFullSample_eq {metadata : BufferProtectionMetadata} (h : metadata.encrypted = true)
    (format : EncryptionFormat) (size : ℕ) :
    addFullSample metadata format size = { metadata with
      subsamples :=
        if format ≠ .clear ∧ metadata.subsamples = [] then [(0, UInt32.ofNat size)]
        else metadata.subsamples } := by
  have hsubsamples := (addFullSample_encrypted h format size).2
  rw [← hsubsamples]
  unfold addFullSample
  split <;> rfl

theorem segment_of_describes {e : Encryption} {metadata : BufferProtectionMetadata}
    {info : GstStructure} (hprocess : processProtectionMetadata (some info) {} = some metadata)
    (h : Describes e metadata) (segment : MediaSegment) (size : ℕ) (caps : GstStructure) :
    addProtectionMetadataToSegment segment (some info) size caps =
      some (e.encrypt segment size caps) := by
  have hpattern : (if metadata.encryptionPatternSet = true then
      some (metadata.cryptBlocks, metadata.skipBlocks) else segment.encryptionPattern) =
        e.pattern.or segment.encryptionPattern := by
    rw [← h.pattern]
    unfold BufferProtectionMetadata.pattern
    split <;> rfl
  unfold addProtectionMetadataToSegment
  simp only [hprocess, Option.bind_eq_bind, Option.bind_some, addFullSample_eq h.encrypted,
    h.encrypted, if_true, hpattern]
  simp only [h.mediaKeySessionId, h.kid, h.iv, h.initWithLast15, h.cipherMode, h.subsamples,
    List.map_eq_nil_iff]
  rfl

/-! ## Writing and reading -/

theorem toNat_ofNat_of_fits {n : ℕ} (h : n < 2 ^ 32) : (UInt32.ofNat n).toNat = n :=
  UInt32.toNat_ofNat_of_lt' h

/-- A constant initialization vector has its size in the other field. -/
theorem ivSize_write (e : Encryption) : (ivSize e.write).toNat = e.iv.length := by
  have hfits := toNat_ofNat_of_fits e.iv_fits
  cases hconstant : e.constantIv with
  | true =>
      have hmode := e.constantIv_cbcs hconstant
      have hsize : ivSize e.write = UInt32.ofNat e.iv.length := by
        simp [ivSize, GstStructure.getUint, GstStructure.getString, Encryption.write,
          Encryption.size, hconstant, hmode, CipherMode.name]
      rw [hsize, hfits]
  | false =>
      have hsize : ivSize e.write = UInt32.ofNat e.iv.length := by
        simp [ivSize, GstStructure.getUint, GstStructure.getString, Encryption.write,
          Encryption.size, hconstant]
      rw [hsize, hfits]

theorem declared_write (e : Encryption) :
    e.write.declared = e.subsamples.map fun p ↦ (p.1.toUInt32, p.2) := by
  have hcount : e.write.subSampleCount = e.subsamples.length :=
    toNat_ofNat_of_fits e.subsamples_fit
  by_cases hnone : e.subsamples = []
  · rw [hnone, List.map_nil, declared_eq_nil_iff]
    apply Option.eq_none_iff_forall_ne_some.mpr
    intro subSamples htable
    have hpositive := (subSampleTable_eq_some_iff.mp htable).2.1
    rw [hcount, hnone] at hpositive
    exact Nat.lt_irrefl _ hpositive
  · have hread := readsBack e.write {} e.subsamples hnone hcount rfl
    rw [getSubSamples_eq] at hread
    exact congrArg BufferProtectionMetadata.subsamples (Option.some.inj hread)

theorem readCipherMode_write (e : Encryption) : readCipherMode e.write = e.cipherMode := by
  have hstring : e.write.getString "cipher-mode" = e.cipherMode.name := by
    have hfield : e.write.field "cipher-mode" = e.cipherMode.name.map .string := rfl
    rw [GstStructure.getString, hfield]
    cases e.cipherMode <;> rfl
  unfold readCipherMode getEncryptionSchemeFromProtectionMetadata
  rw [hstring]
  cases e.cipherMode <;> rfl

theorem readPattern_write (e : Encryption) : readPattern e.write = e.pattern := by
  have hcrypt : e.write.getUint "crypt_byte_block" = e.pattern.map Prod.fst := by
    have hfield : e.write.field "crypt_byte_block" = e.pattern.map (.uint ·.1) := rfl
    rw [GstStructure.getUint, hfield]
    cases e.pattern <;> rfl
  have hskip : e.write.getUint "skip_byte_block" = e.pattern.map Prod.snd := by
    have hfield : e.write.field "skip_byte_block" = e.pattern.map (.uint ·.2) := rfl
    rw [GstStructure.getUint, hfield]
    cases e.pattern <;> rfl
  unfold readPattern
  rw [hcrypt, hskip]
  cases e.pattern <;> rfl

/-- What is written is read. -/
theorem describes_write {e : Encryption} {metadata : BufferProtectionMetadata}
    (h : Reads e.write metadata) : Describes e metadata := by
  refine ⟨h.encrypted, h.mediaKeySessionId, h.kid, ?_, ?_, h.initWithLast15, ?_, ?_⟩
  · rw [h.iv]
    exact if_pos (ivSize_write e)
  · rw [h.subsamples, declared_write]
  · rw [h.cipherMode, readCipherMode_write]
  · rw [h.pattern, readPattern_write]

/-- The entries of a table have 16 bits for the clear bytes. -/
theorem exists_subSample (entry : List UInt8) :
    ∃ p : UInt16 × UInt32, decodeSubSample entry = (p.1.toUInt32, p.2) := by
  have hclear : ofBigEndian (entry.take 2) < 2 ^ 16 := by
    apply Nat.lt_of_lt_of_le (ofBigEndian_lt _)
    exact Nat.pow_le_pow_right (n := 256) (by decide) (List.length_take_le 2 entry)
  refine ⟨(UInt16.ofNat (ofBigEndian (entry.take 2)), _), Prod.ext ?_ rfl⟩
  apply UInt32.toNat_inj.mp
  rw [decodeSubSample, UInt16.toNat_toUInt32, UInt16.toNat_ofNat_of_lt' hclear,
    UInt32.toNat_ofNat_of_lt' (Nat.lt_trans hclear (by decide))]

theorem exists_subsamples (count : ℕ) (subSamples : List UInt8) :
    ∃ pairs : List (UInt16 × UInt32), pairs.length = count ∧
      decodeSubSamples count subSamples = pairs.map fun p ↦ (p.1.toUInt32, p.2) := by
  unfold decodeSubSamples
  induction count generalizing subSamples with
  | zero => exact ⟨[], rfl, rfl⟩
  | succ count ih =>
      obtain ⟨p, hp⟩ := exists_subSample (subSamples.take subSampleSize)
      obtain ⟨pairs, hlength, hpairs⟩ := ih (subSamples.drop subSampleSize)
      refine ⟨p :: pairs, congrArg Nat.succ hlength, ?_⟩
      rw [records, hp, hpairs, List.map_cons]

/-- What is read has a description. -/
theorem exists_describes {info : GstStructure} {metadata : BufferProtectionMetadata}
    (h : Reads info metadata) : ∃ e, Describes e metadata := by
  obtain ⟨pairs, hlength, hpairs⟩ : ∃ pairs : List (UInt16 × UInt32), pairs.length < 2 ^ 32 ∧
      info.declared = pairs.map fun p ↦ (p.1.toUInt32, p.2) := by
    unfold GstStructure.declared
    split
    · next subSamples htable =>
        obtain ⟨pairs, hlength, hpairs⟩ := exists_subsamples info.subSampleCount subSamples
        refine ⟨pairs, ?_, hpairs⟩
        rw [hlength]
        exact UInt32.toNat_lt _
    · exact ⟨[], by decide, rfl⟩
  have hiv : (readIv info).length < 2 ^ 32 := by
    unfold readIv
    split
    · next iv hmapped =>
        split
        · next hsize =>
            rw [← hsize]
            exact UInt32.toNat_lt _
        · decide
    · decide
  let e : Encryption := {
    mediaKeySessionId := (info.getInt "mks_id").getD 0
    kid := readKid info
    iv := readIv info
    subsamples := pairs
    initWithLast15 := (info.getUint "init_with_last_15").getD 0
    cipherMode := readCipherMode info
    pattern := readPattern info
    iv_fits := hiv
    subsamples_fit := hlength
    constantIv_cbcs := by rintro ⟨⟩ }
  exact ⟨e, h.encrypted, h.mediaKeySessionId, h.kid, h.iv, h.subsamples.trans hpairs,
    h.initWithLast15, h.cipherMode, h.pattern⟩

/-- A sample that is not encrypted is left alone. -/
theorem segment_of_clear {protectionMeta : Option GstStructure}
    (hprocess : processProtectionMetadata protectionMeta {} = some {}) (segment : MediaSegment)
    (size : ℕ) (caps : GstStructure) :
    addProtectionMetadataToSegment segment protectionMeta size caps = some segment := by
  unfold addProtectionMetadataToSegment
  rw [hprocess]
  simp [addFullSample]

/-- A description is applied to the segment as it was written, and nothing but a
description ever is. -/
theorem protection_round_trip (segment : MediaSegment) (size : ℕ) (caps : GstStructure) :
    (∀ e : Encryption, addProtectionMetadataToSegment segment (some e.write) size caps =
        some (e.encrypt segment size caps)) ∧
      ∀ protectionMeta : Option GstStructure,
        addProtectionMetadataToSegment segment protectionMeta size caps = some segment ∨
          ∃ e : Encryption, addProtectionMetadataToSegment segment protectionMeta size caps =
            some (e.encrypt segment size caps) := by
  refine ⟨fun e ↦ ?_, fun protectionMeta ↦ ?_⟩
  · obtain ⟨metadata, hprocess, hreads⟩ := @exists_reads e.write rfl
    exact segment_of_describes hprocess (describes_write hreads) segment size caps
  · cases protectionMeta with
    | none => exact .inl (segment_of_clear rfl segment size caps)
    | some info =>
        by_cases hencrypted : info.getBoolean "encrypted" = some true
        · obtain ⟨metadata, hprocess, hreads⟩ := exists_reads hencrypted
          obtain ⟨e, he⟩ := exists_describes hreads
          exact .inr ⟨e, segment_of_describes hprocess he segment size caps⟩
        · exact .inl (segment_of_clear (process_clear hencrypted) segment size caps)

end RialtoGStreamer.BufferParser
