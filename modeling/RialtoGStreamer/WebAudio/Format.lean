import RialtoGStreamer.WebAudio.Caps

/-!
# The grammar of PCM formats

A PCM format is a letter, two digits and the byte order. The parser looks at the
length and at the letter; the digits are left to `strtoul`, and every byte order
that is not `BE` is taken for `LE`.
-/

namespace RialtoGStreamer.WebAudio

/-- `S`, `U` or `F`: whether the samples are signed and whether they are floating
point. -/
inductive SampleKind : UInt8 → Bool → Bool → Prop
  | signed : SampleKind 83 true false
  | unsigned : SampleKind 85 false false
  | float : SampleKind 70 false true

/-- `LE` or `BE`. -/
inductive ByteOrder : UInt8 → UInt8 → Bool → Prop
  | little : ByteOrder 76 69 false
  | big : ByteOrder 66 69 true

/-- A PCM format with its meaning. -/
inductive PcmFormat : List UInt8 → SampleFormat → Prop
  | intro {kind tens ones third fourth : UInt8} {isSigned isFloat isBigEndian : Bool}
      (hkind : SampleKind kind isSigned isFloat) (htens : isDigit tens = true)
      (hones : isDigit ones = true) (horder : ByteOrder third fourth isBigEndian) :
      PcmFormat [kind, tens, ones, third, fourth]
        ⟨UInt32.ofNat (10 * (tens.toNat - 48) + (ones.toNat - 48)), isBigEndian, isSigned, isFloat⟩

/-- The parser returns true exactly for the PCM formats, with their meaning. -/
def ParsesExactly (format : List UInt8) : Prop :=
  ∀ sample, parseGstStructureFormat format = some sample ↔ PcmFormat format sample

/-- Five bytes that begin with the right letter, without the digits or the byte
order. -/
def Malformed : List UInt8 → Prop
  | [kind, first, second, third, fourth] =>
      kind ∈ ascii "SUF" ∧
        ¬(isDigit first = true ∧ isDigit second = true ∧
          ([third, fourth] = ascii "LE" ∨ [third, fourth] = ascii "BE"))
  | _ => False

/-! ## The sample size -/

theorem isDigit_iff {c : UInt8} : isDigit c = true ↔ 48 ≤ c.toNat ∧ c.toNat ≤ 57 := by
  simp [isDigit, UInt8.le_iff_toNat_le]

theorem foldl_decimal_lt (s : List UInt8) (n : ℕ) (h : ∀ c ∈ s, isDigit c = true) :
    s.foldl (fun n c ↦ 10 * n + (c.toNat - 48)) n < 10 ^ s.length * (n + 1) := by
  induction s generalizing n with
  | nil => simp
  | cons c s ih =>
      have hc : c.toNat ≤ 57 := (isDigit_iff.mp (h c List.mem_cons_self)).2
      have htail := ih (10 * n + (c.toNat - 48)) fun d hd ↦ h d (List.mem_cons_of_mem _ hd)
      calc (c :: s).foldl (fun n c ↦ 10 * n + (c.toNat - 48)) n
          < 10 ^ s.length * (10 * n + (c.toNat - 48) + 1) := htail
        _ ≤ 10 ^ s.length * (10 * (n + 1)) := Nat.mul_le_mul_left _ (by omega)
        _ = 10 ^ (c :: s).length * (n + 1) := by
            rw [List.length_cons, Nat.pow_succ, Nat.mul_assoc]

theorem decimal_lt (s : List UInt8) : decimal s < 10 ^ s.length := by
  have hdigits : ∀ c ∈ s.takeWhile isDigit, isDigit c = true :=
    List.all_eq_true.mp List.all_takeWhile
  calc decimal s < 10 ^ (s.takeWhile isDigit).length * (0 + 1) := foldl_decimal_lt _ 0 hdigits
    _ = 10 ^ (s.takeWhile isDigit).length := by rw [Nat.zero_add, Nat.mul_one]
    _ ≤ 10 ^ s.length := Nat.pow_le_pow_right (by decide) (List.takeWhile_prefix _).length_le

/-- A number of at most nineteen digits is not out of range. -/
theorem strtoul_isSome (s : List UInt8) (h : s.length < 20) : (strtoul s).isSome = true := by
  have hread : ∀ digits : List UInt8, digits.length ≤ s.length → decimal digits < 2 ^ 64 := by
    intro digits hlength
    calc decimal digits < 10 ^ digits.length := decimal_lt digits
      _ ≤ 10 ^ 19 := Nat.pow_le_pow_right (by decide) (by omega)
      _ < 2 ^ 64 := by decide
  have hdrop : (s.dropWhile isSpace).length ≤ s.length := (List.dropWhile_suffix _).length_le
  unfold strtoul
  split
  · next digits hsign =>
      rw [hsign, List.length_cons] at hdrop
      simpa using hread digits (by omega)
  · next digits hsign =>
      rw [hsign, List.length_cons] at hdrop
      simpa using hread digits (by omega)
  · simpa using hread _ hdrop

/-- A digit is neither a blank nor a sign. -/
theorem isDigit_only {c : UInt8} (h : isDigit c = true) :
    isSpace c = false ∧ c ≠ 45 ∧ c ≠ 43 := by
  obtain ⟨hlow, hhigh⟩ := isDigit_iff.mp h
  refine ⟨?_, ?_, ?_⟩
  · simp only [isSpace, Bool.or_eq_false_iff, Bool.and_eq_false_iff, decide_eq_false_iff_not,
      UInt8.le_iff_toNat_le, ← UInt8.toNat_inj]
    change ¬c.toNat = 32 ∧ (¬9 ≤ c.toNat ∨ ¬c.toNat ≤ 13)
    omega
  · rintro rfl
    exact absurd hlow (by decide)
  · rintro rfl
    exact absurd hlow (by decide)

theorem strtoul_two_digits {tens ones : UInt8} (htens : isDigit tens = true)
    (hones : isDigit ones = true) :
    strtoul [tens, ones] =
      some (UInt64.ofNat (10 * (tens.toNat - 48) + (ones.toNat - 48))) := by
  obtain ⟨hspace, hminus, hplus⟩ := isDigit_only htens
  have hdecimal : decimal [tens, ones] = 10 * (tens.toNat - 48) + (ones.toNat - 48) := by
    simp [decimal, htens, hones]
  have hlt : decimal [tens, ones] < 2 ^ 64 := by
    calc decimal [tens, ones] < 10 ^ 2 := decimal_lt [tens, ones]
      _ < 2 ^ 64 := by decide
  have hdrop : [tens, ones].dropWhile isSpace = [tens, ones] := by simp [hspace]
  unfold strtoul
  rw [hdrop]
  split
  · next digits heq => exact absurd (List.cons.inj heq).1 hminus
  · next digits heq => exact absurd (List.cons.inj heq).1 hplus
  · rw [← hdecimal]
    exact if_pos hlt

/-! ## The parser -/

/-- Of five bytes the parser looks at the letter, and takes the size and the byte
order as they are. -/
theorem parse_five_bytes {first second : UInt8} {size : UInt64}
    (hsize : strtoul [first, second] = some size) (kind third fourth : UInt8)
    (sample : SampleFormat) :
    parseGstStructureFormat [kind, first, second, third, fourth] = some sample ↔
      ∃ isSigned isFloat, SampleKind kind isSigned isFloat ∧
        sample = ⟨size.toUInt32, [third, fourth] = ascii "BE", isSigned, isFloat⟩ := by
  have hS : ascii "S" = [83] := rfl
  have hU : ascii "U" = [85] := rfl
  have hF : ascii "F" = [70] := rfl
  simp only [parseGstStructureFormat, hsize, hS, hU, hF, List.cons.injEq, and_true]
  constructor
  · intro h
    split at h
    · next hkind =>
        subst hkind
        exact ⟨true, false, .signed, (Option.some.inj h).symm⟩
    · split at h
      · next hkind =>
          subst hkind
          exact ⟨false, false, .unsigned, (Option.some.inj h).symm⟩
      · split at h
        · next hkind =>
            subst hkind
            exact ⟨false, true, .float, (Option.some.inj h).symm⟩
        · cases h
  · rintro ⟨isSigned, isFloat, hkind, rfl⟩
    cases hkind <;> rfl

theorem mem_kinds_iff {kind : UInt8} :
    kind ∈ ascii "SUF" ↔ ∃ isSigned isFloat, SampleKind kind isSigned isFloat := by
  have hkinds : ascii "SUF" = [83, 85, 70] := rfl
  rw [hkinds]
  constructor
  · intro h
    rcases List.mem_cons.mp h with rfl | h
    · exact ⟨true, false, .signed⟩
    rcases List.mem_cons.mp h with rfl | h
    · exact ⟨false, false, .unsigned⟩
    · obtain rfl := List.mem_singleton.mp h
      exact ⟨false, true, .float⟩
  · rintro ⟨isSigned, isFloat, hkind⟩
    cases hkind <;> decide

theorem byteOrder_iff {third fourth : UInt8} {isBigEndian : Bool} :
    ByteOrder third fourth isBigEndian ↔
      ([third, fourth] = ascii "LE" ∨ [third, fourth] = ascii "BE") ∧
        isBigEndian = decide ([third, fourth] = ascii "BE") := by
  have hLE : ascii "LE" = [76, 69] := rfl
  have hBE : ascii "BE" = [66, 69] := rfl
  constructor
  · intro h
    cases h <;> decide
  · rw [hLE, hBE]
    rintro ⟨horder, rfl⟩
    rcases horder with horder | horder
    · obtain ⟨rfl, rfl⟩ : third = 76 ∧ fourth = 69 := by simpa using horder
      exact .little
    · obtain ⟨rfl, rfl⟩ : third = 66 ∧ fourth = 69 := by simpa using horder
      exact .big

theorem pcmFormat_iff {kind first second third fourth : UInt8} {sample : SampleFormat} :
    PcmFormat [kind, first, second, third, fourth] sample ↔
      (isDigit first = true ∧ isDigit second = true ∧
        ([third, fourth] = ascii "LE" ∨ [third, fourth] = ascii "BE")) ∧
      ∃ isSigned isFloat, SampleKind kind isSigned isFloat ∧
        sample = ⟨UInt32.ofNat (10 * (first.toNat - 48) + (second.toNat - 48)),
          [third, fourth] = ascii "BE", isSigned, isFloat⟩ := by
  constructor
  · rintro ⟨hkind, hfirst, hsecond, horder⟩
    obtain ⟨hbytes, rfl⟩ := byteOrder_iff.mp horder
    exact ⟨⟨hfirst, hsecond, hbytes⟩, _, _, hkind, rfl⟩
  · rintro ⟨⟨hfirst, hsecond, hbytes⟩, isSigned, isFloat, hkind, rfl⟩
    exact .intro hkind hfirst hsecond (byteOrder_iff.mpr ⟨hbytes, rfl⟩)

theorem parse_length {format : List UInt8} {sample : SampleFormat}
    (h : parseGstStructureFormat format = some sample) :
    ∃ kind first second third fourth, format = [kind, first, second, third, fourth] := by
  unfold parseGstStructureFormat at h
  split at h
  · exact ⟨_, _, _, _, _, rfl⟩
  · cases h

/-- Well-formed digits and byte order are read as they are meant. -/
theorem parse_of_wellFormed {kind first second third fourth : UInt8} {sample : SampleFormat}
    (hfirst : isDigit first = true) (hsecond : isDigit second = true)
    (horder : [third, fourth] = ascii "LE" ∨ [third, fourth] = ascii "BE") :
    parseGstStructureFormat [kind, first, second, third, fourth] = some sample ↔
      PcmFormat [kind, first, second, third, fourth] sample := by
  have hsize := strtoul_two_digits hfirst hsecond
  rw [parse_five_bytes hsize, pcmFormat_iff]
  simp only [hfirst, hsecond, horder, true_and, UInt64.toUInt32_ofNat']

theorem parsesExactly_iff (format : List UInt8) : ParsesExactly format ↔ ¬Malformed format := by
  by_cases hfive : ∃ kind first second third fourth, format = [kind, first, second, third, fourth]
  · obtain ⟨kind, first, second, third, fourth, rfl⟩ := hfive
    by_cases hwell : isDigit first = true ∧ isDigit second = true ∧
        ([third, fourth] = ascii "LE" ∨ [third, fourth] = ascii "BE")
    · refine iff_of_true (fun sample ↦ ?_) fun hmalformed ↦ hmalformed.2 hwell
      exact parse_of_wellFormed hwell.1 hwell.2.1 hwell.2.2
    · -- The parser does not notice, if the letter is right.
      have hnever : ∀ sample, ¬PcmFormat [kind, first, second, third, fourth] sample :=
        fun sample hformat ↦ hwell (pcmFormat_iff.mp hformat).1
      obtain ⟨size, hsize⟩ :=
        Option.isSome_iff_exists.mp (strtoul_isSome [first, second] (by simp))
      have hmalformed : Malformed [kind, first, second, third, fourth] ↔
          ∃ isSigned isFloat, SampleKind kind isSigned isFloat := by
        rw [← mem_kinds_iff]
        exact and_iff_left hwell
      rw [hmalformed]
      constructor
      · rintro hparses ⟨isSigned, isFloat, hkind⟩
        exact hnever _ ((hparses _).mp
          ((parse_five_bytes hsize kind third fourth _).mpr ⟨isSigned, isFloat, hkind, rfl⟩))
      · intro hkind sample
        refine iff_of_false (fun hparse ↦ ?_) (hnever sample)
        obtain ⟨isSigned, isFloat, hletter, -⟩ :=
          (parse_five_bytes hsize kind third fourth sample).mp hparse
        exact hkind ⟨isSigned, isFloat, hletter⟩
  · refine iff_of_true (fun sample ↦ ?_) fun hmalformed ↦ ?_
    · apply iff_of_false (fun hparse ↦ hfive (parse_length hparse))
      rintro ⟨⟩
      exact hfive ⟨_, _, _, _, _, rfl⟩
    · unfold Malformed at hmalformed
      split at hmalformed
      · exact hfive ⟨_, _, _, _, _, rfl⟩
      · exact hmalformed

/-- The digits are letters. -/
theorem letters_accepted : ¬∀ format, ParsesExactly format := by
  intro h
  have hformat := (h (ascii "SxxLE") ⟨0, false, true, false⟩).mp (by decide)
  obtain ⟨⟨hdigit, -⟩, -⟩ := pcmFormat_iff.mp hformat
  exact absurd hdigit (by decide)

end RialtoGStreamer.WebAudio
