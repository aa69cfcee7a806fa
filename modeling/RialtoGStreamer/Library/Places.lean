import Mathlib.Algebra.Ring.Nat

/-!
# Counting over a list of places

Things move between places of a list, and `total` counts them all. Replacing
the contents of one place changes the total by what the place gained or lost.
-/

namespace RialtoGStreamer.Library

variable {α : Type*}

/-- What `f` counts at each of the places, together. -/
def total (f : α → ℕ) (places : List α) : ℕ :=
  (places.map f).sum

@[simp] theorem total_nil (f : α → ℕ) : total f [] = 0 := rfl

@[simp] theorem total_cons (f : α → ℕ) (a : α) (places : List α) :
    total f (a :: places) = f a + total f places := by
  simp [total]

@[simp] theorem total_append (f : α → ℕ) (places places' : List α) :
    total f (places ++ places') = total f places + total f places' := by
  simp [total, List.sum_append]

theorem total_set {f : α → ℕ} {places : List α} {i : ℕ} {a : α} (h : places[i]? = some a)
    (b : α) : total f (places.set i b) + f a = total f places + f b := by
  induction places generalizing i with
  | nil => simp at h
  | cons c places ih =>
      cases i with
      | zero =>
          obtain rfl : c = a := by simpa using h
          simp only [List.set_cons_zero, total_cons]
          omega
      | succ i =>
          have ih := ih (by simpa using h)
          simp only [List.set_cons_succ, total_cons]
          omega

/-- Each place holds one thing at most. -/
theorem total_le_length {f : α → ℕ} (hone : ∀ a, f a ≤ 1) (places : List α) :
    total f places ≤ places.length := by
  induction places with
  | nil => exact Nat.le_refl 0
  | cons a places ih =>
      have ha := hone a
      rw [total_cons, List.length_cons]
      omega

theorem total_eq_zero {f : α → ℕ} {places : List α} (h : ∀ a ∈ places, f a = 0) :
    total f places = 0 := by
  induction places with
  | nil => rfl
  | cons a places ih =>
      rw [total_cons, h a List.mem_cons_self, ih fun b hb ↦ h b (List.mem_cons_of_mem _ hb)]

end RialtoGStreamer.Library
