import Mathlib.Algebra.Order.Ring.Nat
import Mathlib.Data.List.Induction

/-!
# Tables of big-endian numbers

Numbers as bytes, the most significant one first, and tables of records that all
have the same width.
-/

namespace RialtoGStreamer.Library

/-! ## Numbers -/

/-- The number with these bytes. -/
def ofBigEndian (bytes : List UInt8) : ℕ :=
  bytes.foldl (fun n b ↦ 256 * n + b.toNat) 0

/-- The low `width` bytes of a number. -/
def toBigEndian : ℕ → ℕ → List UInt8
  | 0, _ => []
  | width + 1, n => toBigEndian width (n / 256) ++ [UInt8.ofNat n]

theorem ofBigEndian_append_singleton (bytes : List UInt8) (b : UInt8) :
    ofBigEndian (bytes ++ [b]) = 256 * ofBigEndian bytes + b.toNat := by
  simp [ofBigEndian]

@[simp] theorem length_toBigEndian (width n : ℕ) : (toBigEndian width n).length = width := by
  induction width generalizing n with
  | zero => rfl
  | succ width ih => rw [toBigEndian, List.length_append, ih, List.length_singleton]

theorem ofBigEndian_toBigEndian (width n : ℕ) :
    ofBigEndian (toBigEndian width n) = n % 256 ^ width := by
  induction width generalizing n with
  | zero => simp [toBigEndian, ofBigEndian, Nat.mod_one]
  | succ width ih =>
      have hbyte : (UInt8.ofNat n).toNat = n % 256 := UInt8.toNat_ofNat'
      rw [toBigEndian, ofBigEndian_append_singleton, ih, hbyte, pow_succ', Nat.mod_mul,
        Nat.add_comm]

theorem ofBigEndian_toBigEndian_of_lt {width n : ℕ} (h : n < 256 ^ width) :
    ofBigEndian (toBigEndian width n) = n := by
  rw [ofBigEndian_toBigEndian, Nat.mod_eq_of_lt h]

theorem ofBigEndian_lt (bytes : List UInt8) : ofBigEndian bytes < 256 ^ bytes.length := by
  induction bytes using List.reverseRecOn with
  | nil => decide
  | append_singleton bytes b ih =>
      have hb : b.toNat < 256 := b.toNat_lt
      rw [ofBigEndian_append_singleton, List.length_append, List.length_singleton, pow_succ]
      omega

/-- A byte is put behind a number with a shift. -/
theorem shiftLeft_or_byte (n : ℕ) (b : UInt8) : n <<< 8 ||| b.toNat = 256 * n + b.toNat := by
  have hb : b.toNat < 2 ^ 8 := b.toNat_lt
  rw [← Nat.shiftLeft_add_eq_or_of_lt hb, Nat.shiftLeft_eq, Nat.mul_comm]

/-! ## Tables -/

variable {α β : Type*}

/-- The first `count` records of `width` entries. -/
def records (width : ℕ) (read : List β → α) : ℕ → List β → List α
  | 0, _ => []
  | count + 1, entries =>
      read (entries.take width) :: records width read count (entries.drop width)

@[simp] theorem length_records (width : ℕ) (read : List β → α) (count : ℕ) (entries : List β) :
    (records width read count entries).length = count := by
  induction count generalizing entries with
  | zero => rfl
  | succ count ih => rw [records, List.length_cons, ih]

/-- The records are those of the entries that they cover. -/
theorem records_take (width : ℕ) (read : List β → α) (count : ℕ) (entries : List β) :
    records width read count (entries.take (width * count)) =
      records width read count entries := by
  induction count generalizing entries with
  | zero => rfl
  | succ count ih =>
      have hmin : min width (width * (count + 1)) = width :=
        min_eq_left (Nat.le_mul_of_pos_right width (Nat.succ_pos count))
      have hrest : width * (count + 1) - width = width * count := by
        rw [Nat.mul_succ, Nat.add_sub_cancel]
      rw [records, records, List.take_take, hmin, List.drop_take, hrest, ih]

theorem length_flatMap_of_width {width : ℕ} {write : α → List β}
    (hwidth : ∀ x, (write x).length = width) (xs : List α) :
    (xs.flatMap write).length = width * xs.length := by
  induction xs with
  | nil => rfl
  | cons x xs ih =>
      rw [List.flatMap_cons, List.length_append, hwidth, ih, List.length_cons, Nat.mul_succ,
        Nat.add_comm]

/-- A table is read back, whatever follows it. -/
theorem records_flatMap {γ : Type*} {width : ℕ} (read : List β → α) {write : γ → List β}
    (hwidth : ∀ x, (write x).length = width) (xs : List γ) (rest : List β) :
    records width read xs.length (xs.flatMap write ++ rest) = xs.map fun x ↦ read (write x) := by
  induction xs with
  | nil => rfl
  | cons x xs ih =>
      rw [List.length_cons, records, List.flatMap_cons, List.append_assoc,
        List.take_left' (hwidth x), List.drop_left' (hwidth x), ih, List.map_cons]

end RialtoGStreamer.Library
