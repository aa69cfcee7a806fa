import Mathlib.Tactic.Common

/-!
# Loops that read an input in each round

The inputs of all the rounds are given beforehand, so a statement about every
stream of inputs is a statement about every environment of the loop. A state in
which the loop does not continue stays as it is.
-/

namespace RialtoGStreamer.Library

structure Loop (σ ι : Type*) where
  continues : σ → Bool
  body : σ → ι → σ

namespace Loop

variable {σ ι : Type*} (L : Loop σ ι) (inputs : ℕ → ι) (s : σ)

/-- The state behind `n` rounds. -/
def rounds : ℕ → σ
  | 0 => s
  | n + 1 => if L.continues (rounds n) then L.body (rounds n) (inputs n) else rounds n

@[simp] theorem rounds_zero : L.rounds inputs s 0 = s := rfl

variable {inputs s}

theorem rounds_succ {n : ℕ} (h : L.continues (L.rounds inputs s n) = true) :
    L.rounds inputs s (n + 1) = L.body (L.rounds inputs s n) (inputs n) :=
  if_pos h

/-- An invariant of the body holds behind every round. -/
theorem rounds_invariant {I : σ → Prop} (hs : I s)
    (hbody : ∀ t i, I t → L.continues t = true → I (L.body t i)) (n : ℕ) :
    I (L.rounds inputs s n) := by
  induction n with
  | zero => exact hs
  | succ n ih =>
      rw [rounds]
      split
      · next hcontinues => exact hbody _ _ ih hcontinues
      · exact ih

/-- Where the body changes nothing the loop runs forever. -/
theorem rounds_eq_of_fixed (h : ∀ i, L.body s (inputs i) = s) (n : ℕ) :
    L.rounds inputs s n = s := by
  induction n with
  | zero => rfl
  | succ n ih =>
      rw [rounds, ih, h n]
      exact ite_self s

/-- A loop that decreases a measure in every round but the last one exits. -/
theorem exits_of_measure (μ : σ → ℕ)
    (h : ∀ n, L.continues (L.rounds inputs s n) = true →
      L.continues (L.rounds inputs s (n + 1)) = true →
        μ (L.rounds inputs s (n + 1)) < μ (L.rounds inputs s n)) :
    ∃ n ≤ μ s + 1, L.continues (L.rounds inputs s n) = false := by
  by_contra hnot
  have hgoes : ∀ n ≤ μ s + 1, L.continues (L.rounds inputs s n) = true := by
    intro n hn
    by_contra hstops
    exact hnot ⟨n, hn, by simpa using hstops⟩
  have hspent : ∀ n ≤ μ s + 1, μ (L.rounds inputs s n) + n ≤ μ s := by
    intro n
    induction n with
    | zero => simp
    | succ n ih =>
        intro hn
        have hless := h n (hgoes n (Nat.le_of_succ_le hn)) (hgoes (n + 1) hn)
        have hbefore := ih (Nat.le_of_succ_le hn)
        omega
  have hlast := hspent (μ s + 1) (Nat.le_refl _)
  omega

end Loop

end RialtoGStreamer.Library
