import Mathlib.Algebra.Order.Ring.Nat
import RialtoGStreamer.BufferParser.Model
import RialtoGStreamer.Library.ByteTable

/-!
# The subsamples of an encrypted sample

The table of subsamples has the layout of the `senc` atom. A sample without
subsamples is encrypted as a whole, and so is one whose table is not there or has
another size than the declared number of subsamples asks for.
-/

namespace RialtoGStreamer.BufferParser

open Library

/-- An entry of the `senc` atom, by the layout. -/
def decodeSubSample (entry : List UInt8) : UInt32 × UInt32 :=
  (UInt32.ofNat (ofBigEndian (entry.take 2)), UInt32.ofNat (ofBigEndian ((entry.drop 2).take 4)))

/-- The first `count` entries of a table. -/
def decodeSubSamples (count : ℕ) (subSamples : List UInt8) : List (UInt32 × UInt32) :=
  records subSampleSize decodeSubSample count subSamples

def encodeSubSample (subSample : UInt16 × UInt32) : List UInt8 :=
  toBigEndian 2 subSample.1.toNat ++ toBigEndian 4 subSample.2.toNat

/-- The number of subsamples that is declared. -/
def GstStructure.subSampleCount (info : GstStructure) : ℕ :=
  ((info.getUint "subsample_count").getD 0).toNat

/-- The table, if subsamples are declared and it has their number of entries. Less
than an entry may be left over. -/
def GstStructure.subSampleTable (info : GstStructure) : Option (List UInt8) :=
  (info.getMappedBuffer "subsamples").filter fun subSamples ↦
    0 < info.subSampleCount && subSamples.length / subSampleSize = info.subSampleCount

/-- A table made of `pairs` is decoded to them. -/
def ReadsBack (info : GstStructure) (metadata : BufferProtectionMetadata)
    (pairs : List (UInt16 × UInt32)) : Prop :=
  pairs ≠ [] → info.subSampleCount = pairs.length →
    info.getMappedBuffer "subsamples" = some (pairs.flatMap encodeSubSample) →
      getSubSamplesFromProtectionMetadata info metadata = some
        { metadata with
          subsamples := metadata.subsamples ++ pairs.map fun p ↦ (p.1.toUInt32, p.2) }

/-- No read is out of bounds, and either nothing is added or as many entries as are
declared, from the beginning of the table. -/
def DecodesTable (info : GstStructure) (metadata : BufferProtectionMetadata) : Prop :=
  ∃ pairs, getSubSamplesFromProtectionMetadata info metadata = some
      { metadata with subsamples := metadata.subsamples ++ pairs } ∧
    (pairs = [] ∨ pairs.length = info.subSampleCount ∧
      ∃ subSamples, info.getMappedBuffer "subsamples" = some subSamples ∧
        subSampleSize * info.subSampleCount ≤ subSamples.length ∧
        pairs = decodeSubSamples info.subSampleCount
          (subSamples.take (subSampleSize * info.subSampleCount)))

/-- An encrypted sample gets the subsamples of its table, and the full-sample
subsample in place of a table only where none is declared. -/
def PartitionedAsDeclared (segment : MediaSegment) (info : GstStructure) (size : ℕ)
    (caps : GstStructure) : Prop :=
  info.getBoolean "encrypted" = some true →
    ∃ out added, addProtectionMetadataToSegment segment (some info) size caps = some out ∧
      out.subSamples = segment.subSamples ++ added ∧
      (∀ subSamples, info.getMappedBuffer "subsamples" = some subSamples →
        0 < info.subSampleCount → subSamples.length = subSampleSize * info.subSampleCount →
          added = decodeSubSamples info.subSampleCount subSamples) ∧
      (info.subSampleTable = none → added = [(0, UInt32.ofNat size)] →
        encryptionFormat caps.name ≠ .clear ∧ info.subSampleCount = 0)

/-- The sample is encrypted, of one of the two media types, and declares subsamples
without a table for them. -/
def LosesTable (info caps : GstStructure) : Prop :=
  info.getBoolean "encrypted" = some true ∧ encryptionFormat caps.name ≠ .clear ∧
    0 < info.subSampleCount ∧ info.subSampleTable = none

/-! ## One entry -/

theorem toNat_clear (b₀ b₁ : UInt8) :
    (b₀.toUInt16 <<< 8 ||| b₁.toUInt16).toNat = 256 * b₀.toNat + b₁.toNat := by
  have h₀ : b₀.toNat < 256 := b₀.toNat_lt
  have hshift : (b₀.toUInt16 <<< 8).toNat = b₀.toNat <<< 8 := by
    rw [UInt16.toNat_shiftLeft, UInt8.toNat_toUInt16]
    exact Nat.mod_eq_of_lt (by rw [Nat.shiftLeft_eq]; change _ * 256 < 65536; omega)
  rw [UInt16.toNat_or, hshift, UInt8.toNat_toUInt16, shiftLeft_or_byte]

theorem toNat_shiftLeft {b : UInt8} {n : UInt32} (hn : n.toNat ≤ 24) :
    (b.toUInt32 <<< n).toNat = b.toNat <<< n.toNat := by
  have hb : b.toNat < 2 ^ 8 := b.toNat_lt
  rw [UInt32.toNat_shiftLeft, UInt8.toNat_toUInt32, Nat.mod_eq_of_lt (a := n.toNat) (by omega)]
  apply Nat.mod_eq_of_lt
  calc b.toNat <<< n.toNat = b.toNat * 2 ^ n.toNat := Nat.shiftLeft_eq _ _
    _ < 2 ^ 8 * 2 ^ n.toNat := Nat.mul_lt_mul_of_pos_right hb (Nat.two_pow_pos _)
    _ = 2 ^ (8 + n.toNat) := (pow_add 2 8 n.toNat).symm
    _ ≤ 2 ^ 32 := Nat.pow_le_pow_right (by decide) (by omega)

theorem toNat_encrypted (b₂ b₃ b₄ b₅ : UInt8) :
    (b₂.toUInt32 <<< 24 ||| b₃.toUInt32 <<< 16 ||| b₄.toUInt32 <<< 8 ||| b₅.toUInt32).toNat =
      256 * (256 * (256 * b₂.toNat + b₃.toNat) + b₄.toNat) + b₅.toNat := by
  rw [UInt32.toNat_or, UInt32.toNat_or, UInt32.toNat_or, toNat_shiftLeft (by decide),
    toNat_shiftLeft (by decide), toNat_shiftLeft (by decide), UInt8.toNat_toUInt32]
  change b₂.toNat <<< (8 + 8 + 8) ||| b₃.toNat <<< (8 + 8) ||| b₄.toNat <<< 8 ||| b₅.toNat = _
  rw [Nat.shiftLeft_add, Nat.shiftLeft_add, Nat.shiftLeft_add, ← Nat.shiftLeft_or_distrib,
    ← Nat.shiftLeft_or_distrib, ← Nat.shiftLeft_or_distrib, shiftLeft_or_byte, shiftLeft_or_byte,
    shiftLeft_or_byte]

theorem exists_six_entries (entries : List UInt8) (h : subSampleSize ≤ entries.length) :
    ∃ b₀ b₁ b₂ b₃ b₄ b₅ rest, entries = b₀ :: b₁ :: b₂ :: b₃ :: b₄ :: b₅ :: rest := by
  match entries, h with
  | b₀ :: b₁ :: b₂ :: b₃ :: b₄ :: b₅ :: rest, _ => exact ⟨b₀, b₁, b₂, b₃, b₄, b₅, rest, rfl⟩

/-- Inside the table the loop reads the entry as it is laid out. -/
theorem readSubSample_eq {subSamples : List UInt8} {offset : ℕ}
    (h : offset + subSampleSize ≤ subSamples.length) :
    readSubSample subSamples offset =
      some (decodeSubSample ((subSamples.drop offset).take subSampleSize)) := by
  have hget : ∀ k, subSamples[offset + k]? = (subSamples.drop offset)[k]? :=
    fun k ↦ List.getElem?_drop.symm
  obtain ⟨b₀, b₁, b₂, b₃, b₄, b₅, rest, hentries⟩ :=
    exists_six_entries (subSamples.drop offset) (by rw [List.length_drop]; omega)
  rw [hentries] at hget
  have h₀ : subSamples[offset]? = some b₀ := hget 0
  have h₁ : subSamples[offset + 1]? = some b₁ := hget 1
  have h₂ : subSamples[offset + 2]? = some b₂ := hget 2
  have h₃ : subSamples[offset + 3]? = some b₃ := hget 3
  have h₄ : subSamples[offset + 4]? = some b₄ := hget 4
  have h₅ : subSamples[offset + 5]? = some b₅ := hget 5
  have hclear : (b₀.toUInt16 <<< 8 ||| b₁.toUInt16).toUInt32 =
      UInt32.ofNat (ofBigEndian [b₀, b₁]) := by
    rw [← UInt32.ofNat_uInt16ToNat, toNat_clear]
    simp [ofBigEndian]
  have hencrypted :
      b₂.toUInt32 <<< 24 ||| b₃.toUInt32 <<< 16 ||| b₄.toUInt32 <<< 8 ||| b₅.toUInt32 =
        UInt32.ofNat (ofBigEndian [b₂, b₃, b₄, b₅]) := by
    rw [← UInt32.ofNat_toNat (x := _ ||| b₅.toUInt32), toNat_encrypted]
    simp [ofBigEndian]
  have hread : readSubSample subSamples offset = some
      ((b₀.toUInt16 <<< 8 ||| b₁.toUInt16).toUInt32,
        b₂.toUInt32 <<< 24 ||| b₃.toUInt32 <<< 16 ||| b₄.toUInt32 <<< 8 ||| b₅.toUInt32) := by
    unfold readSubSample
    rw [h₀, h₁, h₂, h₃, h₄, h₅]
    rfl
  rw [hread, hclear, hencrypted, hentries]
  rfl

theorem decodeSubSamples_succ (count : ℕ) (subSamples : List UInt8) :
    decodeSubSamples (count + 1) subSamples =
      decodeSubSample (subSamples.take subSampleSize) ::
        decodeSubSamples count (subSamples.drop subSampleSize) := rfl

theorem readSubSamples_eq (subSamples : List UInt8) (count offset : ℕ)
    (h : offset + subSampleSize * count ≤ subSamples.length) :
    readSubSamples subSamples count offset =
      some (decodeSubSamples count (subSamples.drop offset)) := by
  induction count generalizing offset with
  | zero => rfl
  | succ count ih =>
      have hentry : offset + subSampleSize ≤ subSamples.length := by
        rw [Nat.mul_succ] at h
        omega
      have hrest : offset + subSampleSize + subSampleSize * count ≤ subSamples.length := by
        rw [Nat.mul_succ] at h
        omega
      rw [readSubSamples, readSubSample_eq hentry, ih _ hrest, decodeSubSamples_succ,
        List.drop_drop]
      rfl

theorem decodeSubSample_encodeSubSample (subSample : UInt16 × UInt32) :
    decodeSubSample (encodeSubSample subSample) = (subSample.1.toUInt32, subSample.2) := by
  obtain ⟨clear, encrypted⟩ := subSample
  have hclear : clear.toNat < 256 ^ 2 := clear.toNat_lt
  have hencrypted : encrypted.toNat < 256 ^ 4 := encrypted.toNat_lt
  unfold decodeSubSample encodeSubSample
  rw [List.take_left' (length_toBigEndian 2 _), List.drop_left' (length_toBigEndian 2 _),
    List.take_of_length_le (length_toBigEndian 4 _).le, ofBigEndian_toBigEndian_of_lt hclear,
    ofBigEndian_toBigEndian_of_lt hencrypted, UInt32.ofNat_toNat, UInt32.ofNat_uInt16ToNat]

/-! ## The table -/

theorem subSampleTable_eq_some_iff {info : GstStructure} {subSamples : List UInt8} :
    info.subSampleTable = some subSamples ↔
      info.getMappedBuffer "subsamples" = some subSamples ∧ 0 < info.subSampleCount ∧
        subSamples.length / subSampleSize = info.subSampleCount := by
  rw [GstStructure.subSampleTable, Option.filter_eq_some_iff]
  simp

/-- The entries that the table declares. -/
def GstStructure.declared (info : GstStructure) : List (UInt32 × UInt32) :=
  match info.subSampleTable with
  | some subSamples => decodeSubSamples info.subSampleCount subSamples
  | none => []

/-- The function adds what is declared; the reads stay inside the table. -/
theorem getSubSamples_eq (info : GstStructure) (metadata : BufferProtectionMetadata) :
    getSubSamplesFromProtectionMetadata info metadata = some
      { metadata with subsamples := metadata.subsamples ++ info.declared } := by
  have hnothing (h : info.subSampleTable = none) :
      some metadata = some { metadata with
        subsamples := metadata.subsamples ++ info.declared } := by
    rw [GstStructure.declared, h, List.append_nil]
  have hcount : (info.getUint "subsample_count").getD 0 = 0 ↔ info.subSampleCount = 0 :=
    UInt32.toNat_inj.symm
  unfold getSubSamplesFromProtectionMetadata
  simp only [hcount]
  split
  · next hzero =>
      refine hnothing (Option.eq_none_iff_forall_ne_some.mpr fun subSamples htable ↦ ?_)
      have hpositive := (subSampleTable_eq_some_iff.mp htable).2.1
      omega
  · next hdeclared =>
      split
      · next hmissing =>
          apply hnothing
          rw [GstStructure.subSampleTable, hmissing]
          rfl
      · next subSamples hmapped =>
          split
          · next hlength =>
              have htable : info.subSampleTable = some subSamples :=
                subSampleTable_eq_some_iff.mpr ⟨hmapped, Nat.pos_of_ne_zero hdeclared, hlength⟩
              have hinside : 0 + subSampleSize * info.subSampleCount ≤ subSamples.length := by
                rw [← (subSampleTable_eq_some_iff.mp htable).2.2, Nat.zero_add]
                exact Nat.mul_div_le _ _
              change (readSubSamples subSamples info.subSampleCount 0).map _ = _
              rw [readSubSamples_eq subSamples _ 0 hinside, GstStructure.declared, htable,
                List.drop_zero]
              rfl
          · next hlength =>
              refine hnothing (Option.eq_none_iff_forall_ne_some.mpr fun table htable ↦ ?_)
              obtain ⟨hmapped', -, hlength'⟩ := subSampleTable_eq_some_iff.mp htable
              obtain rfl := Option.some.inj (hmapped.symm.trans hmapped')
              exact hlength hlength'

theorem length_encodeSubSample (subSample : UInt16 × UInt32) :
    (encodeSubSample subSample).length = subSampleSize := by
  rw [encodeSubSample, List.length_append, length_toBigEndian, length_toBigEndian]
  rfl

theorem decodeSubSamples_flatMap (pairs : List (UInt16 × UInt32)) :
    decodeSubSamples pairs.length (pairs.flatMap encodeSubSample) =
      pairs.map fun p ↦ (p.1.toUInt32, p.2) := by
  have hrecords := records_flatMap decodeSubSample length_encodeSubSample pairs []
  rw [List.append_nil] at hrecords
  rw [decodeSubSamples, hrecords]
  exact List.map_congr_left fun p _ ↦ decodeSubSample_encodeSubSample p

theorem readsBack (info : GstStructure) (metadata : BufferProtectionMetadata)
    (pairs : List (UInt16 × UInt32)) : ReadsBack info metadata pairs := by
  intro hpairs hcount hmapped
  have htable : info.subSampleTable = some (pairs.flatMap encodeSubSample) := by
    refine subSampleTable_eq_some_iff.mpr ⟨hmapped, ?_, ?_⟩
    · rw [hcount]
      exact List.length_pos_iff.mpr hpairs
    · rw [hcount, length_flatMap_of_width length_encodeSubSample]
      exact Nat.mul_div_cancel_left _ (by decide)
  have hdeclared : info.declared = pairs.map fun p ↦ (p.1.toUInt32, p.2) := by
    rw [GstStructure.declared, htable, hcount]
    exact decodeSubSamples_flatMap pairs
  rw [getSubSamples_eq, hdeclared]

theorem decodesTable (info : GstStructure) (metadata : BufferProtectionMetadata) :
    DecodesTable info metadata := by
  refine ⟨info.declared, getSubSamples_eq info metadata, ?_⟩
  cases htable : info.subSampleTable with
  | none =>
      left
      rw [GstStructure.declared, htable]
  | some subSamples =>
      right
      obtain ⟨hmapped, -, hlength⟩ := subSampleTable_eq_some_iff.mp htable
      have hdeclared : info.declared = decodeSubSamples info.subSampleCount subSamples := by
        rw [GstStructure.declared, htable]
      rw [hdeclared]
      refine ⟨length_records _ _ _ _, subSamples, hmapped, ?_, ?_⟩
      · rw [← hlength]
        exact Nat.mul_div_le _ _
      · exact (records_take _ _ _ _).symm

theorem declared_eq_nil_iff {info : GstStructure} :
    info.declared = [] ↔ info.subSampleTable = none := by
  unfold GstStructure.declared
  split
  · next subSamples htable =>
      rw [htable]
      refine iff_of_false (fun hnil ↦ ?_) (by simp)
      have hlength : (decodeSubSamples info.subSampleCount subSamples).length =
          info.subSampleCount := length_records _ _ _ _
      rw [hnil] at hlength
      exact absurd hlength.symm (subSampleTable_eq_some_iff.mp htable).2.1.ne'
  · next htable => exact iff_of_true rfl htable

/-! ## The segment -/

theorem getKID_frame (info : GstStructure) (metadata : BufferProtectionMetadata) :
    (getKIDFromProtectionMetadata info metadata).encrypted = metadata.encrypted ∧
      (getKIDFromProtectionMetadata info metadata).subsamples = metadata.subsamples := by
  unfold getKIDFromProtectionMetadata
  split <;> exact ⟨rfl, rfl⟩

theorem getIV_frame (info : GstStructure) (metadata : BufferProtectionMetadata) :
    (getIVFromProtectionMetadata info metadata).encrypted = metadata.encrypted ∧
      (getIVFromProtectionMetadata info metadata).subsamples = metadata.subsamples := by
  unfold getIVFromProtectionMetadata
  split
  · split <;> exact ⟨rfl, rfl⟩
  · exact ⟨rfl, rfl⟩

theorem getEncryptionPattern_frame (info : GstStructure) (metadata : BufferProtectionMetadata) :
    (getEncryptionPatternFromProtectionMetadata info metadata).encrypted = metadata.encrypted ∧
      (getEncryptionPatternFromProtectionMetadata info metadata).subsamples =
        metadata.subsamples := by
  unfold getEncryptionPatternFromProtectionMetadata
  split
  · exact ⟨rfl, rfl⟩
  · split <;> exact ⟨rfl, rfl⟩

/-- Of an encrypted sample the metadata holds the subsamples that are declared. -/
theorem process_encrypted {info : GstStructure} (h : info.getBoolean "encrypted" = some true) :
    ∃ metadata, processProtectionMetadata (some info) {} = some metadata ∧
      metadata.encrypted = true ∧ metadata.subsamples = info.declared := by
  have hencrypted : (getEncryptedFromProtectionMetadata info {}).encrypted = true := by
    rw [getEncryptedFromProtectionMetadata, h]
    rfl
  unfold processProtectionMetadata
  simp only [hencrypted, if_true, getSubSamples_eq, Option.bind_eq_bind, Option.bind_some]
  refine ⟨_, rfl, ?_, ?_⟩
  · rw [(getEncryptionPattern_frame _ _).1]
    change (getIVFromProtectionMetadata _ _).encrypted = true
    rw [(getIV_frame _ _).1, (getKID_frame _ _).1]
    exact hencrypted
  · rw [(getEncryptionPattern_frame _ _).2]
    change (getIVFromProtectionMetadata _ _).subsamples ++ info.declared = info.declared
    rw [(getIV_frame _ _).2, (getKID_frame _ _).2]
    rfl

theorem addFullSample_encrypted {metadata : BufferProtectionMetadata}
    (h : metadata.encrypted = true) (format : EncryptionFormat) (size : ℕ) :
    (addFullSample metadata format size).encrypted = true ∧
      (addFullSample metadata format size).subsamples =
        if format ≠ .clear ∧ metadata.subsamples = [] then [(0, UInt32.ofNat size)]
        else metadata.subsamples := by
  have hformat : (format = .webm ∨ format = .cenc) ↔ format ≠ .clear := by
    cases format <;> simp
  simp only [addFullSample, hformat, h, true_and, List.length_eq_zero_iff]
  split
  · next hfull => exact ⟨rfl, by rw [hfull.2]; rfl⟩
  · exact ⟨h, rfl⟩

/-- What the segment of an encrypted sample gets. -/
theorem addProtectionMetadata_eq (segment : MediaSegment) {info : GstStructure}
    (h : info.getBoolean "encrypted" = some true) (size : ℕ) (caps : GstStructure) :
    ∃ out, addProtectionMetadataToSegment segment (some info) size caps = some out ∧
      out.subSamples = segment.subSamples ++
        if encryptionFormat caps.name ≠ .clear ∧ info.subSampleTable = none then
          [(0, UInt32.ofNat size)]
        else info.declared := by
  obtain ⟨metadata, hmetadata, hencrypted, hsubsamples⟩ := process_encrypted h
  obtain ⟨hfull, hadded⟩ :=
    addFullSample_encrypted hencrypted (encryptionFormat caps.name) size
  unfold addProtectionMetadataToSegment
  simp only [hmetadata, Option.bind_eq_bind, Option.bind_some, hfull, if_true]
  refine ⟨_, rfl, ?_⟩
  change segment.subSamples ++ (addFullSample _ _ _).subsamples = _
  rw [hadded, hsubsamples]
  simp only [declared_eq_nil_iff]

theorem partitioned_iff (segment : MediaSegment) (info : GstStructure) (size : ℕ)
    (caps : GstStructure) :
    PartitionedAsDeclared segment info size caps ↔ ¬LosesTable info caps := by
  constructor
  · rintro hpartitioned ⟨hencrypted, hformat, hdeclared, htable⟩
    obtain ⟨out, added, hout, hadded, -, hfull⟩ := hpartitioned hencrypted
    obtain ⟨out', hout', hadded'⟩ := addProtectionMetadata_eq segment hencrypted size caps
    obtain rfl := Option.some.inj (hout.symm.trans hout')
    rw [hadded, if_pos ⟨hformat, htable⟩] at hadded'
    have hnone := (hfull htable (List.append_cancel_left hadded')).2
    omega
  · intro hkept hencrypted
    obtain ⟨out, hout, hadded⟩ := addProtectionMetadata_eq segment hencrypted size caps
    refine ⟨out, _, hout, hadded, ?_, fun htable hfull ↦ ?_⟩
    · intro subSamples hmapped hpositive hlength
      have htable : info.subSampleTable = some subSamples := by
        refine subSampleTable_eq_some_iff.mpr ⟨hmapped, hpositive, ?_⟩
        rw [hlength]
        exact Nat.mul_div_cancel_left _ (by decide)
      rw [if_neg (by simp [htable]), GstStructure.declared, htable]
    · by_cases hformat : encryptionFormat caps.name = .clear
      · rw [if_neg (by simp [hformat]), declared_eq_nil_iff.mpr htable] at hfull
        cases hfull
      · refine ⟨hformat, Nat.eq_zero_of_not_pos fun hpositive ↦ ?_⟩
        exact hkept ⟨hencrypted, hformat, hpositive, htable⟩

theorem subSamples_partitioned (info : GstStructure) (metadata : BufferProtectionMetadata)
    (segment : MediaSegment) (size : ℕ) (caps : GstStructure) :
    (∀ pairs, ReadsBack info metadata pairs) ∧ DecodesTable info metadata ∧
      (PartitionedAsDeclared segment info size caps ↔ ¬LosesTable info caps) :=
  ⟨readsBack info metadata, decodesTable info metadata, partitioned_iff segment info size caps⟩

/-- One subsample is declared, and the table is a byte short. -/
def shortTable : GstStructure where
  name := "application/x-cenc"
  field
    | "encrypted" => some (.boolean true)
    | "subsample_count" => some (.uint 1)
    | "subsamples" => some (.buffer (some [0, 7, 0, 0, 0]))
    | _ => none

theorem short_table_replaced : ¬∀ (segment : MediaSegment) (info : GstStructure) (size : ℕ)
    (caps : GstStructure), PartitionedAsDeclared segment info size caps := by
  intro h
  have hlost : LosesTable shortTable shortTable :=
    ⟨by decide, by decide, by decide, by decide⟩
  exact (partitioned_iff {} shortTable 19 shortTable).mp (h _ _ _ _) hlost

end RialtoGStreamer.BufferParser
