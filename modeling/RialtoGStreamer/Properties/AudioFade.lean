import RialtoGStreamer.MediaPlayerClient.Refusal
import RialtoGStreamer.Properties.Model

/-!
# The strings of the audio-fade property

`setProperty` takes the string apart with `sscanf` and keeps the defaults for what
was not converted. It returns early when `sscanf` converted nothing, but not when
`sscanf` met the end of the string before that.
-/

namespace RialtoGStreamer.Properties

open Library
open MediaPlayerClient (scanUnsigned scanComma)

/-- What `sscanf` returned, and the variables that it wrote to. -/
structure Scanned where
  parsedItems : Int
  fadeVolume : UInt32
  duration : UInt32
  easeTypeChar : Char
  deriving DecidableEq

def isBlank (c : Char) : Bool :=
  c.toNat ∈ [9, 10, 11, 12, 13, 32]

/-- `sscanf` with `"%u,%u,%c"`. A string of blanks ends before the first
conversion, and the result is `EOF`. -/
def scanAudioFade (audioFadeStr : List Char) (fadeVolume duration : UInt32)
    (easeTypeChar : Char) : Scanned :=
  if audioFadeStr.all isBlank then { parsedItems := -1, fadeVolume, duration, easeTypeChar }
  else
    match scanUnsigned audioFadeStr with
    | none => { parsedItems := 0, fadeVolume, duration, easeTypeChar }
    | some (fadeVolume, input) =>
        match (scanComma input).bind scanUnsigned with
        | none => { parsedItems := 1, fadeVolume, duration, easeTypeChar }
        | some (duration, input) =>
            match scanComma input with
            | some (easeTypeChar :: _) => { parsedItems := 3, fadeVolume, duration, easeTypeChar }
            | some [] | none => { parsedItems := 2, fadeVolume, duration, easeTypeChar }

def convertCharToEaseType : Char → EaseType
  | 'L' => .linear
  | 'I' => .inCubic
  | 'O' => .outCubic
  | _ => .linear

/-- What `setProperty` writes to `m_audioFadeConfig`, unless it returns before. The
defaults are `kDefaultVolume * 100` and `kDefaultVolumeDuration`. -/
def parseAudioFade (audioFadeStr : String) : Option AudioFadeConfig :=
  let scanned := scanAudioFade audioFadeStr.toList 100 0 'L'
  if scanned.parsedItems = 0 then none
  else
    let fadeVolume := if scanned.fadeVolume > 100 then 100 else scanned.fadeVolume
    some {
      volume := fadeVolume.toFloat / 100.0
      duration := scanned.duration
      easeType := convertCharToEaseType scanned.easeTypeChar }

def State.setAudioFade (s : State audio) (audioFadeStr : String) : State audio :=
  match parseAudioFade audioFadeStr with
  | none => s
  | some config => s.setProperty .audioFade config

/-! ## What a string asks for -/

/-- How a sign is written, and whether it is a minus. -/
inductive Sign : List Char → Bool → Prop
  | none : Sign [] false
  | plus : Sign ['+'] false
  | minus : Sign ['-'] true

/-- The value of the digits as `strtoul` has it, cut to 32 bits. -/
def unsignedValue (digits : List Char) (negative : Bool) : UInt32 :=
  let value : ℕ := digits.foldl (fun n c ↦ 10 * n + (c.toNat - 48)) 0
  UInt32.ofNat (if UInt64.size ≤ value then UInt64.size - 1
    else if negative then UInt64.size - value else value)

/-- Behind white space, `input` begins with a decimal number, up to `rest`. -/
inductive Number : List Char → UInt32 → List Char → Prop
  | intro {blanks sign digits rest : List Char} {negative : Bool}
      (hblanks : ∀ c ∈ blanks, isBlank c = true) (hsign : Sign sign negative)
      (hdigits : ∀ c ∈ digits, c.isDigit = true) (hsome : digits ≠ [])
      (hrest : ∀ c ∈ rest.head?, c.isDigit = false) :
      Number (blanks ++ (sign ++ (digits ++ rest))) (unsignedValue digits negative) rest

def easeType (letter : Char) : EaseType :=
  if letter = 'I' then .inCubic else if letter = 'O' then .outCubic else .linear

/-- A volume in percent, at most 100. -/
def fraction (fadeVolume : UInt32) : Float :=
  (min fadeVolume 100).toFloat / 100.0

/-- The fade that a string asks for: a volume, then perhaps a duration, and then
perhaps a letter, with commas between them. -/
inductive AsksFor (input : List Char) : AudioFadeConfig → Prop
  | volume {fadeVolume : UInt32} {rest : List Char} (hvolume : Number input fadeVolume rest)
      (hrest : ∀ tail duration rest', rest = ',' :: tail → ¬Number tail duration rest') :
      AsksFor input ⟨fraction fadeVolume, 0, .linear⟩
  | duration {fadeVolume duration : UInt32} {tail rest : List Char}
      (hvolume : Number input fadeVolume (',' :: tail)) (hduration : Number tail duration rest)
      (hrest : ∀ letter tail', rest ≠ ',' :: letter :: tail') :
      AsksFor input ⟨fraction fadeVolume, duration, .linear⟩
  | ease {fadeVolume duration : UInt32} {letter : Char} {tail tail' : List Char}
      (hvolume : Number input fadeVolume (',' :: tail))
      (hduration : Number tail duration (',' :: letter :: tail')) :
      AsksFor input ⟨fraction fadeVolume, duration, easeType letter⟩

/-- The fade is kept, and sent to the client or queued. -/
structure Forwarded (s t : State audio) (config : AudioFadeConfig) : Prop where
  kept : t.value .audioFade = config
  sent : s.client = true →
    t.deliveries = s.deliveries ++ [⟨.audioFade, config, s.sourceId, some config⟩]
  queued : s.client = false →
    t.queued .audioFade = true ∧ t.deliveries = s.deliveries

/-- A string that begins with a number is forwarded as it asks, and no other string
changes anything. -/
structure FadesAsAsked (audioFadeStr : String) : Prop where
  asked : ∀ value rest, Number audioFadeStr.toList value rest →
    ∃ config, (∀ c, AsksFor audioFadeStr.toList c ↔ c = config) ∧
      ∀ s : State audio, Forwarded s (s.setAudioFade audioFadeStr) config
  silent : (∀ value rest, ¬Number audioFadeStr.toList value rest) →
    ∀ s : State audio, s.setAudioFade audioFadeStr = s

/-! ## The conversion of numbers -/

/-- The parts that `%u` takes a string for: the digits may be missing, and without
a sign nothing before them is left. -/
structure Parts (blanks sign digits rest : List Char) (negative : Bool) : Prop where
  allBlanks : ∀ c ∈ blanks, isBlank c = true
  isSign : Sign sign negative
  allDigits : ∀ c ∈ digits, c.isDigit = true
  noDigit : ∀ c ∈ rest.head?, c.isDigit = false
  bare : sign = [] → ∀ c ∈ (digits ++ rest).head?, isBlank c = false ∧ c ≠ '-' ∧ c ≠ '+'

theorem takeWhile_append_of_head {p : Char → Bool} {front rest : List Char}
    (hfront : ∀ c ∈ front, p c = true) (hrest : ∀ c ∈ rest.head?, p c = false) :
    (front ++ rest).takeWhile p = front ∧ (front ++ rest).dropWhile p = rest := by
  have hhead : rest.takeWhile p = [] ∧ rest.dropWhile p = rest := by
    cases rest with
    | nil => exact ⟨rfl, rfl⟩
    | cons c rest => simp [hrest c rfl]
  refine ⟨?_, ?_⟩
  · rw [List.takeWhile_append_of_pos hfront, hhead.1, List.append_nil]
  · rw [List.dropWhile_append_of_pos hfront, hhead.2]

theorem head_dropWhile {p : Char → Bool} {input : List Char} :
    ∀ c ∈ (input.dropWhile p).head?, p c = false := by
  intro c hc
  induction input with
  | nil => simp at hc
  | cons d input ih =>
      by_cases hd : p d = true
      · exact ih (by simpa [hd] using hc)
      · obtain rfl : d = c := by simpa [hd] using hc
        exact Bool.eq_false_iff.mpr hd

/-- A digit is neither a blank nor a sign. -/
theorem digit_only {c : Char} (h : c.isDigit = true) :
    isBlank c = false ∧ c ≠ '-' ∧ c ≠ '+' := by
  have hlow : 48 ≤ c.toNat := by
    have hle : c.val ≥ 48 := by simpa using (Bool.and_eq_true_iff.mp h).1
    exact UInt32.le_iff_toNat_le.mp hle
  refine ⟨?_, ?_, ?_⟩
  · have hnot : ∀ n ∈ [9, 10, 11, 12, 13, 32], n < 48 := by decide
    exact decide_eq_false fun hmem ↦ absurd (hnot _ hmem) (Nat.not_lt.mpr hlow)
  · rintro rfl
    exact absurd hlow (by decide)
  · rintro rfl
    exact absurd hlow (by decide)

theorem sign_not_blank {sign body : List Char} {negative : Bool} (hsign : Sign sign negative)
    (hbare : sign = [] → ∀ c ∈ body.head?, isBlank c = false) :
    ∀ c ∈ (sign ++ body).head?, isBlank c = false := by
  cases hsign with
  | none => exact hbare rfl
  | plus =>
      rintro c ⟨⟩
      decide
  | minus =>
      rintro c ⟨⟩
      decide

theorem exists_sign (body : List Char) (hbody : ∀ c ∈ body.head?, isBlank c = false) :
    ∃ sign tail negative, Sign sign negative ∧ body = sign ++ tail ∧
      (sign = [] → ∀ c ∈ tail.head?, isBlank c = false ∧ c ≠ '-' ∧ c ≠ '+') := by
  cases body with
  | nil => exact ⟨[], [], false, .none, rfl, by simp⟩
  | cons c tail =>
      by_cases hminus : c = '-'
      · subst hminus
        exact ⟨_, tail, _, .minus, rfl, fun h ↦ absurd h (by simp)⟩
      by_cases hplus : c = '+'
      · subst hplus
        exact ⟨_, tail, _, .plus, rfl, fun h ↦ absurd h (by simp)⟩
      refine ⟨[], c :: tail, false, .none, rfl, fun _ d hd ↦ ?_⟩
      obtain rfl := Option.some.inj hd
      exact ⟨hbody c rfl, hminus, hplus⟩

theorem exists_parts (input : List Char) : ∃ blanks sign digits rest negative,
    Parts blanks sign digits rest negative ∧
      input = blanks ++ (sign ++ (digits ++ rest)) := by
  have hinput := List.takeWhile_append_dropWhile (p := isBlank) (l := input)
  obtain ⟨sign, tail, negative, hsign, hbody, hbare⟩ :=
    exists_sign (input.dropWhile isBlank) head_dropWhile
  have htail := List.takeWhile_append_dropWhile (p := Char.isDigit) (l := tail)
  refine ⟨input.takeWhile isBlank, sign, tail.takeWhile Char.isDigit, tail.dropWhile Char.isDigit,
    negative, ⟨List.all_eq_true.mp List.all_takeWhile, hsign,
      List.all_eq_true.mp List.all_takeWhile, head_dropWhile, ?_⟩, ?_⟩
  · rwa [htail]
  · rw [htail, ← hbody, hinput]

theorem scanUnsigned_of_parts {blanks sign digits rest : List Char} {negative : Bool}
    (h : Parts blanks sign digits rest negative) :
    scanUnsigned (blanks ++ (sign ++ (digits ++ rest))) =
      if digits = [] then none else some (unsignedValue digits negative, rest) := by
  have hbody := takeWhile_append_of_head h.allDigits h.noDigit
  have hdrop : (blanks ++ (sign ++ (digits ++ rest))).dropWhile
      (fun c ↦ decide (c.toNat ∈ [9, 10, 11, 12, 13, 32])) = sign ++ (digits ++ rest) := by
    refine (takeWhile_append_of_head h.allBlanks ?_).2
    exact sign_not_blank h.isSign fun hnone c hc ↦ (h.bare hnone c hc).1
  unfold scanUnsigned
  rw [hdrop]
  obtain ⟨-, hsign, -, -, hbare⟩ := h
  cases hsign with
  | none =>
      have hminus : (digits ++ rest).head? ≠ some '-' := fun hhead ↦ (hbare rfl _ hhead).2.1 rfl
      have hplus : (digits ++ rest).head? ≠ some '+' := fun hhead ↦ (hbare rfl _ hhead).2.2 rfl
      simp only [List.nil_append, hminus, hplus, or_self, if_false, hbody, unsignedValue,
        List.drop_left, Bool.false_eq_true]
  | plus => simp [hbody, unsignedValue]
  | minus => simp [hbody, unsignedValue]

theorem scanUnsigned_iff {input rest : List Char} {value : UInt32} :
    scanUnsigned input = some (value, rest) ↔ Number input value rest := by
  constructor
  · obtain ⟨blanks, sign, digits, tail, negative, hparts, rfl⟩ := exists_parts input
    rw [scanUnsigned_of_parts hparts]
    intro h
    split at h
    · cases h
    · next hsome =>
        obtain ⟨rfl, rfl⟩ := Prod.mk.inj (Option.some.inj h)
        exact .intro hparts.allBlanks hparts.isSign hparts.allDigits hsome hparts.noDigit
  · rintro ⟨hblanks, hsign, hdigits, hsome, hrest⟩
    refine (scanUnsigned_of_parts ⟨hblanks, hsign, hdigits, hrest, ?_⟩).trans (if_neg hsome)
    intro _ c hc
    rw [List.head?_append_of_ne_nil _ hsome] at hc
    exact digit_only (hdigits c (List.mem_of_mem_head? hc))

theorem scanComma_iff {input tail : List Char} :
    scanComma input = some tail ↔ input = ',' :: tail := by
  unfold scanComma
  split
  · simp [eq_comm]
  · next hcomma =>
      refine iff_of_false (by simp) ?_
      rintro rfl
      exact hcomma tail rfl

theorem not_number_of_blank {input : List Char} (h : ∀ c ∈ input, isBlank c = true)
    (value : UInt32) (rest : List Char) : ¬Number input value rest := by
  rintro ⟨-, -, hdigits, hsome, -⟩
  obtain ⟨c, hc⟩ := List.exists_mem_of_ne_nil _ hsome
  have hblank := h c (by simp [hc])
  rw [(digit_only (hdigits c hc)).1] at hblank
  cases hblank

theorem Number.not_all_blank {input rest : List Char} {value : UInt32}
    (h : Number input value rest) : input.all isBlank = false := by
  apply Bool.eq_false_iff.mpr
  intro hall
  exact not_number_of_blank (List.all_eq_true.mp hall) _ _ h

/-! ## The string -/

theorem convertCharToEaseType_eq (letter : Char) :
    convertCharToEaseType letter = easeType letter := by
  unfold convertCharToEaseType easeType
  split <;> simp_all

theorem clamped_eq (fadeVolume : UInt32) :
    (if fadeVolume > 100 then 100 else fadeVolume) = min fadeVolume 100 := by
  change _ = if fadeVolume ≤ 100 then fadeVolume else 100
  split
  · next hlarge => rw [if_neg (UInt32.not_le.mpr hlarge)]
  · next hsmall => rw [if_pos (UInt32.not_lt.mp hsmall)]

theorem parseAudioFade_of_scanned {audioFadeStr : String} {scanned : Scanned}
    (h : scanAudioFade audioFadeStr.toList 100 0 'L' = scanned) (hsome : scanned.parsedItems ≠ 0) :
    parseAudioFade audioFadeStr = some
      ⟨fraction scanned.fadeVolume, scanned.duration, easeType scanned.easeTypeChar⟩ := by
  unfold parseAudioFade
  simp only [h, if_neg hsome, clamped_eq, convertCharToEaseType_eq]
  rfl

/-- Of a string that asks for a fade `sscanf` stores that fade. -/
theorem parseAudioFade_of_asksFor {audioFadeStr : String} {config : AudioFadeConfig}
    (h : AsksFor audioFadeStr.toList config) : parseAudioFade audioFadeStr = some config := by
  cases h with
  | @volume fadeVolume rest hvolume hrest =>
      have hsecond : (scanComma rest).bind scanUnsigned = none := by
        apply Option.eq_none_iff_forall_ne_some.mpr
        intro scanned hscanned
        obtain ⟨tail, hcomma, hduration⟩ := Option.bind_eq_some_iff.mp hscanned
        exact hrest tail _ _ (scanComma_iff.mp hcomma) (scanUnsigned_iff.mp hduration)
      have hscanned : scanAudioFade audioFadeStr.toList 100 0 'L' = ⟨1, fadeVolume, 0, 'L'⟩ := by
        simp [scanAudioFade, hvolume.not_all_blank, scanUnsigned_iff.mpr hvolume, hsecond]
      have hparse := parseAudioFade_of_scanned hscanned (by simp)
      exact hparse
  | @duration fadeVolume duration tail rest hvolume hduration hrest =>
      have hsecond : (scanComma (',' :: tail)).bind scanUnsigned = some (duration, rest) :=
        scanUnsigned_iff.mpr hduration
      have hscanned : scanAudioFade audioFadeStr.toList 100 0 'L' =
          ⟨2, fadeVolume, duration, 'L'⟩ := by
        simp only [scanAudioFade, hvolume.not_all_blank, scanUnsigned_iff.mpr hvolume, hsecond,
          Bool.false_eq_true, if_false]
        split
        · next letter tail' hthird => exact absurd (scanComma_iff.mp hthird) (hrest letter tail')
        · rfl
        · rfl
      have hparse := parseAudioFade_of_scanned hscanned (by simp)
      exact hparse
  | @ease fadeVolume duration letter tail tail' hvolume hduration =>
      have hsecond : (scanComma (',' :: tail)).bind scanUnsigned =
          some (duration, ',' :: letter :: tail') := scanUnsigned_iff.mpr hduration
      have hthird : scanComma (',' :: letter :: tail') = some (letter :: tail') :=
        scanComma_iff.mpr rfl
      have hscanned : scanAudioFade audioFadeStr.toList 100 0 'L' =
          ⟨3, fadeVolume, duration, letter⟩ := by
        simp [scanAudioFade, hvolume.not_all_blank, scanUnsigned_iff.mpr hvolume, hsecond, hthird]
      have hparse := parseAudioFade_of_scanned hscanned (by simp)
      exact hparse

/-- A string that begins with a number asks for some fade. -/
theorem exists_asksFor {input rest : List Char} {fadeVolume : UInt32}
    (h : Number input fadeVolume rest) : ∃ config, AsksFor input config := by
  by_cases hduration : ∃ tail duration rest', rest = ',' :: tail ∧ Number tail duration rest'
  · obtain ⟨tail, duration, rest', rfl, hduration⟩ := hduration
    by_cases hletter : ∃ letter tail', rest' = ',' :: letter :: tail'
    · obtain ⟨letter, tail', rfl⟩ := hletter
      exact ⟨_, .ease h hduration⟩
    · exact ⟨_, .duration h hduration fun letter tail' heq ↦ hletter ⟨letter, tail', heq⟩⟩
  · refine ⟨_, .volume h fun tail duration rest' heq hnumber ↦ ?_⟩
    exact hduration ⟨tail, duration, rest', heq, hnumber⟩

theorem parseAudioFade_of_no_number {audioFadeStr : String}
    (hsolid : ∃ c ∈ audioFadeStr.toList, isBlank c = false)
    (h : ∀ value rest, ¬Number audioFadeStr.toList value rest) :
    parseAudioFade audioFadeStr = none := by
  obtain ⟨c, hc, hsolid⟩ := hsolid
  have hblank : audioFadeStr.toList.all isBlank = false :=
    List.all_eq_false.mpr ⟨c, hc, by rw [hsolid]; decide⟩
  have hscan : scanUnsigned audioFadeStr.toList = none := by
    apply Option.eq_none_iff_forall_ne_some.mpr
    intro scanned hscanned
    exact h _ _ (scanUnsigned_iff.mp hscanned)
  simp [parseAudioFade, scanAudioFade, hblank, hscan]

/-- `setProperty` keeps the config, and sends or queues it. -/
theorem forwarded_setProperty (s : State audio) (config : AudioFadeConfig) :
    Forwarded s (s.setProperty .audioFade config) config := by
  have hsource : audio.needsSource .audioFade = false := rfl
  refine ⟨?_, fun hclient ↦ ?_, fun hclient ↦ ?_⟩
  · unfold State.setProperty
    split <;> rfl
  · unfold State.setProperty
    rw [hclient, hsource]
    rfl
  · unfold State.setProperty
    rw [hclient, hsource]
    exact ⟨rfl, rfl⟩

theorem forwarded_setAudioFade {audioFadeStr : String} {config : AudioFadeConfig}
    (h : parseAudioFade audioFadeStr = some config) (s : State audio) :
    Forwarded s (s.setAudioFade audioFadeStr) config := by
  rw [State.setAudioFade, h]
  exact forwarded_setProperty s config

/-- The end of the string is not taken for a failure: the defaults are sent. -/
theorem not_fadesAsAsked_of_blank {audioFadeStr : String}
    (hblank : ∀ c ∈ audioFadeStr.toList, isBlank c = true) : ¬FadesAsAsked audioFadeStr := by
  intro hasked
  have hscanned : scanAudioFade audioFadeStr.toList 100 0 'L' = ⟨-1, 100, 0, 'L'⟩ :=
    if_pos (List.all_eq_true.mpr hblank)
  have hsent := (forwarded_setAudioFade (parseAudioFade_of_scanned hscanned (by decide))
    { client := true }).sent rfl
  rw [hasked.silent (not_number_of_blank hblank)] at hsent
  cases hsent

theorem fadesAsAsked_iff (audioFadeStr : String) :
    FadesAsAsked audioFadeStr ↔ ∃ c ∈ audioFadeStr.toList, isBlank c = false := by
  constructor
  · intro hasked
    by_contra hblank
    refine not_fadesAsAsked_of_blank (fun c hc ↦ ?_) hasked
    by_contra hsolid
    exact hblank ⟨c, hc, Bool.eq_false_iff.mpr hsolid⟩
  · intro hsolid
    refine ⟨fun value rest hnumber ↦ ?_, fun hnone s ↦ ?_⟩
    · obtain ⟨config, hasks⟩ := exists_asksFor hnumber
      have hparse := parseAudioFade_of_asksFor hasks
      refine ⟨config, fun c ↦ ⟨fun hc ↦ ?_, ?_⟩, forwarded_setAudioFade hparse⟩
      · -- The parser gives one result.
        exact Option.some.inj ((parseAudioFade_of_asksFor hc).symm.trans hparse)
      · rintro rfl
        exact hasks
    · rw [State.setAudioFade, parseAudioFade_of_no_number hsolid hnone]

/-- The empty string resets the volume. -/
theorem empty_fade_forwarded : ¬∀ audioFadeStr, FadesAsAsked audioFadeStr := by
  intro h
  exact not_fadesAsAsked_of_blank (by simp) (h "")

end RialtoGStreamer.Properties
