import Mathlib.Data.List.Perm.Basic

/-!
# Registers that are written once

A register starts unset and takes the first value it is told; what it is told
later is ignored. Several tellers that may come in any order agree on what it
holds in the end exactly when no two of them tell different values.
-/

namespace RialtoGStreamer.Library.WriteOnce

variable {α β ι : Type*} {unset : α} {f : β → α} {x : β} {xs ys : List β}

/-- No two members of the list tell different values. -/
def Agree (unset : α) (f : β → α) (xs : List β) : Prop :=
  ∀ x ∈ xs, ∀ y ∈ xs, f x ≠ unset → f y ≠ unset → f x = f y

theorem Agree.perm (hagree : Agree unset f xs) (hperm : ys.Perm xs) : Agree unset f ys :=
  fun x hx y hy ↦ hagree x (hperm.mem_iff.mp hx) y (hperm.mem_iff.mp hy)

variable [DecidableEq α]

/-- What a register holds after it was told `new`. -/
def write (unset known new : α) : α :=
  if known = unset then new else known

/-- The first value that the members of a list tell. -/
def firstSet (unset : α) (f : β → α) (xs : List β) : α :=
  ((xs.map f).find? fun value ↦ value ≠ unset).getD unset

@[simp] theorem firstSet_nil : firstSet unset f [] = unset := rfl

theorem firstSet_cons :
    firstSet unset f (x :: xs) = write unset (f x) (firstSet unset f xs) := by
  by_cases hx : f x = unset <;> simp [firstSet, write, hx]

theorem write_assoc (known new later : α) :
    write unset (write unset known new) later = write unset known (write unset new later) := by
  by_cases hknown : known = unset <;> simp [write, hknown]

@[simp] theorem write_unset (known : α) : write unset known unset = known := by
  by_cases hknown : known = unset <;> simp [write, hknown]

@[simp] theorem unset_write (new : α) : write unset unset new = new := by
  simp [write]

/-- Told one after the other, the register keeps what it has or takes the first. -/
theorem foldl_write (known : α) :
    xs.foldl (fun known x ↦ write unset known (f x)) known =
      write unset known (firstSet unset f xs) := by
  induction xs generalizing known with
  | nil => simp
  | cons x xs ih =>
      rw [List.foldl_cons, ih, firstSet_cons, write_assoc]

/-! ## Any order -/

theorem firstSet_eq_of_mem (hagree : Agree unset f xs) (hx : x ∈ xs) (hset : f x ≠ unset) :
    firstSet unset f xs = f x := by
  induction xs with
  | nil => cases hx
  | cons y ys ih =>
      rw [firstSet_cons]
      by_cases hy : f y = unset
      · rw [hy, unset_write]
        have hmem : x ∈ ys := by
          rcases List.mem_cons.mp hx with rfl | hmem
          · exact absurd hy hset
          · exact hmem
        refine ih (fun z hz w hw ↦ ?_) hmem
        exact hagree z (List.mem_cons_of_mem y hz) w (List.mem_cons_of_mem y hw)
      · rw [write, if_neg hy]
        exact hagree y List.mem_cons_self x hx hy hset

theorem firstSet_eq_unset (hunset : ∀ x ∈ xs, f x = unset) : firstSet unset f xs = unset := by
  induction xs with
  | nil => rfl
  | cons x xs ih =>
      rw [firstSet_cons, hunset x List.mem_cons_self, unset_write]
      exact ih fun y hy ↦ hunset y (List.mem_cons_of_mem x hy)

theorem Agree.firstSet_perm (hagree : Agree unset f xs) (hperm : ys.Perm xs) :
    firstSet unset f ys = firstSet unset f xs := by
  by_cases hset : ∃ x ∈ xs, f x ≠ unset
  · obtain ⟨x, hx, hset⟩ := hset
    rw [firstSet_eq_of_mem hagree hx hset,
      firstSet_eq_of_mem (hagree.perm hperm) (hperm.mem_iff.mpr hx) hset]
  · have hunset : ∀ x ∈ xs, f x = unset := by
      intro x hx
      by_contra hne
      exact hset ⟨x, hx, hne⟩
    rw [firstSet_eq_unset hunset,
      firstSet_eq_unset fun y hy ↦ hunset y (hperm.mem_iff.mp hy)]

/-- Each of the tellers may come first, and then its value is the one that stays. -/
theorem agree_of_forall_perm {value : α}
    (hall : ∀ ys, ys.Perm xs → firstSet unset f ys = value) : Agree unset f xs := by
  have hfirst : ∀ x ∈ xs, f x ≠ unset → f x = value := by
    intro x hx hset
    obtain ⟨before, after, rfl⟩ := List.append_of_mem hx
    have hfront : firstSet unset f (x :: (before ++ after)) = value :=
      hall _ List.perm_middle.symm
    rw [firstSet_cons, write, if_neg hset] at hfront
    exact hfront
  intro x hx y hy hxset hyset
  rw [hfirst x hx hxset, hfirst y hy hyset]

/-- Several registers told at once: the order never matters exactly when the
tellers agree on each of them. -/
theorem forall_perm_iff_agree {g : β → ι → α} :
    (∃ values : ι → α, ∀ ys, ys.Perm xs → ∀ i, firstSet unset (g · i) ys = values i) ↔
      ∀ i, Agree unset (g · i) xs := by
  constructor
  · rintro ⟨values, hall⟩ i
    exact agree_of_forall_perm fun ys hperm ↦ hall ys hperm i
  · intro hagree
    exact ⟨fun i ↦ firstSet unset (g · i) xs, fun ys hperm i ↦ (hagree i).firstSet_perm hperm⟩

end RialtoGStreamer.Library.WriteOnce
