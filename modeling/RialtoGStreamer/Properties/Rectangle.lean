import RialtoGStreamer.Properties.AudioFade

/-!
# The text of the video rectangle

The client hands out its rectangle as text, in a buffer of 64 characters, and
takes a rectangle as text. What it hands out at one time asks for that rectangle
at any other.
-/

namespace RialtoGStreamer.Properties

open Library MediaPlayerClient

variable {ν : Type*}

/-- The conversion `%u` of `sprintf`. -/
def printUnsigned (value : UInt32) : List Char :=
  Nat.toDigits 10 value.toNat

/-- `sprintf` with `"%u,%u,%u,%u"`. -/
def printRectangle (r : Rectangle) : List Char :=
  printUnsigned r.x ++ ',' :: (printUnsigned r.y ++ ',' :: (printUnsigned r.width ++
    ',' :: printUnsigned r.height))

/-- The characters of `rectangle`, the last of which ends the string. -/
def rectangleSize : ℕ := 64

def getVideoRectangle (w : World ν) : String :=
  String.ofList (printRectangle w.videoRectangle)

theorem unsignedValue_printUnsigned (value : UInt32) :
    unsignedValue (printUnsigned value) false = value := by
  have hvalue : (printUnsigned value).foldl (fun n c ↦ 10 * n + (c.toNat - 48)) 0 =
      value.toNat := Nat.ofDigitChars_ten_toDigits
  have hsmall : ¬UInt64.size ≤ value.toNat := by
    have hlt := value.toNat_lt
    have hsize : UInt64.size = 2 ^ 64 := rfl
    omega
  unfold unsignedValue
  simp only [hvalue]
  rw [if_neg hsmall, if_neg (by decide)]
  exact UInt32.ofNat_toNat

/-- The digits end where something else begins. -/
theorem number_printUnsigned (value : UInt32) {rest : List Char}
    (hrest : ∀ c ∈ rest.head?, c.isDigit = false) :
    Number (printUnsigned value ++ rest) value rest := by
  have hdigits : ∀ c ∈ printUnsigned value, c.isDigit = true :=
    fun c hc ↦ Nat.isDigit_of_mem_toDigits (by decide) (by decide) hc
  have hnumber : Number ([] ++ ([] ++ (printUnsigned value ++ rest)))
      (unsignedValue (printUnsigned value) false) rest :=
    .intro (by simp) .none hdigits Nat.toDigits_ne_nil hrest
  rw [unsignedValue_printUnsigned] at hnumber
  exact hnumber

theorem scanUnsigned_printUnsigned_comma (value : UInt32) (rest : List Char) :
    scanUnsigned (printUnsigned value ++ ',' :: rest) = some (value, ',' :: rest) := by
  apply scanUnsigned_iff.mpr
  apply number_printUnsigned
  rintro c ⟨⟩
  decide

theorem scanUnsigned_printUnsigned (value : UInt32) :
    scanUnsigned (printUnsigned value) = some (value, []) := by
  have hnumber : Number (printUnsigned value ++ []) value [] :=
    number_printUnsigned value (by simp)
  rw [List.append_nil] at hnumber
  exact scanUnsigned_iff.mpr hnumber

/-- All that is printed is read back. -/
theorem sscanf_printRectangle (r : Rectangle) :
    sscanf (String.ofList (printRectangle r)) = some r := by
  unfold sscanf printRectangle
  simp only [String.toList_ofList, scanUnsigned_printUnsigned_comma, Option.bind_eq_bind,
    Option.bind_some, scanComma, scanUnsigned_printUnsigned]
  rfl

theorem length_printUnsigned (value : UInt32) : (printUnsigned value).length ≤ 10 := by
  apply (Nat.length_toDigits_le_iff (by decide) (by decide)).mpr
  have hlt := value.toNat_lt
  omega

theorem length_printRectangle (r : Rectangle) : (printRectangle r).length < rectangleSize := by
  have hx := length_printUnsigned r.x
  have hy := length_printUnsigned r.y
  have hwidth := length_printUnsigned r.width
  have hheight := length_printUnsigned r.height
  simp only [printRectangle, List.length_append, List.length_cons, rectangleSize]
  omega

theorem printRectangle_ne_nil (r : Rectangle) : printRectangle r ≠ [] := by
  simp [printRectangle]

/-- The text that the client has handed out in `w` fits, and asks the client in
`w'`, a later one or another, for the rectangle of `w`. -/
theorem videoRectangle_restored (w w' : World ν)
    (hcreated : w'.isMediaPlayerBackendCreated = true) :
    (printRectangle w.videoRectangle).length < rectangleSize ∧
      w'.calls (.setVideoRectangle (getVideoRectangle w)) =
        [(.setVideoWindow w.videoRectangle, w'.cached)] ∧
      (w'.setVideoRectangle (getVideoRectangle w)).videoRectangle = w.videoRectangle := by
  have hwindow : w'.videoWindow (getVideoRectangle w) = some w.videoRectangle := by
    unfold World.videoWindow
    rw [if_neg (by simp [hcreated]), if_neg]
    · exact sscanf_printRectangle w.videoRectangle
    · intro hempty
      have hnil := congrArg String.toList hempty
      rw [getVideoRectangle, String.toList_ofList] at hnil
      exact printRectangle_ne_nil _ hnil
  refine ⟨length_printRectangle _, ?_, ?_⟩
  · simp only [World.calls, hwindow]
    rfl
  · unfold World.setVideoRectangle
    rw [hwindow]

/-- The largest text is that of four numbers of ten digits. -/
def largestWindow : World ℕ where
  volume := 0
  videoRectangle := ⟨4294967295, 4294967295, 4294967295, 4294967295⟩

def createdWindow : World ℕ where
  volume := 0
  isMediaPlayerBackendCreated := true

theorem videoRectangle_restored_largest :
    (createdWindow.setVideoRectangle (getVideoRectangle largestWindow)).videoRectangle =
      ⟨4294967295, 4294967295, 4294967295, 4294967295⟩ :=
  (videoRectangle_restored largestWindow createdWindow rfl).2.2

/-- The default of the sink is the text of the default of the client. -/
example : getVideoRectangle createdWindow = "0,0,1920,1080" := by
  decide +kernel

end RialtoGStreamer.Properties
