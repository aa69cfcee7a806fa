import Mathlib.Data.List.Basic
import Mathlib.Logic.Relation

/-!
# Forests given by the way up

Each node has at most one node above it. Two nodes have the same root if and only
if they belong together, that is, if the relation between a node and the one above
it connects them.
-/

namespace RialtoGStreamer.Library

/-- The way up from each node; it ends, for the depth gets smaller. -/
structure Forest (α : Type*) where
  up : α → Option α
  depth : α → ℕ
  depth_lt : ∀ {a b}, up a = some b → depth b < depth a

namespace Forest

variable {α : Type*} (F : Forest α)

/-- `b` is directly above `a`. -/
def Above (a b : α) : Prop :=
  F.up a = some b

def root (a : α) : α :=
  match h : F.up a with
  | some b =>
      have := F.depth_lt h
      root b
  | none => a
termination_by F.depth a

theorem root_of_none {a : α} (h : F.up a = none) : F.root a = a := by
  rw [root]
  split
  · next b hb => simp [h] at hb
  · rfl

theorem root_of_above {a b : α} (h : F.Above a b) : F.root a = F.root b := by
  rw [root]
  split
  · next c hc =>
      rw [Above, hc] at h
      cases h
      rfl
  · next hnone => simp [Above, hnone] at h

/-- What holds of a node if it holds of the one above it, and of the nodes with
nothing above them, holds of all. -/
theorem climb {P : α → Prop} (top : ∀ a, F.up a = none → P a)
    (above : ∀ a b, F.Above a b → P b → P a) (a : α) : P a := by
  induction hd : F.depth a using Nat.strongRecOn generalizing a with
  | _ d ih =>
      subst hd
      cases h : F.up a with
      | none => exact top a h
      | some b => exact above a b h (ih (F.depth b) (F.depth_lt h) b rfl)

theorem up_root (a : α) : F.up (F.root a) = none := by
  induction a using F.climb with
  | top a h => rwa [F.root_of_none h]
  | above a b h ih => rwa [F.root_of_above h]

theorem eqvGen_root (a : α) : Relation.EqvGen F.Above a (F.root a) := by
  induction a using F.climb with
  | top a h =>
      rw [F.root_of_none h]
      exact .refl a
  | above a b h ih =>
      rw [F.root_of_above h]
      exact .trans a b _ (.rel a b h) ih

theorem root_eq_root_iff {a b : α} : F.root a = F.root b ↔ Relation.EqvGen F.Above a b := by
  constructor
  · intro h
    have hb := F.eqvGen_root b
    rw [← h] at hb
    exact .trans a (F.root a) b (F.eqvGen_root a) (.symm b _ hb)
  · intro h
    induction h with
    | rel a b hab => exact F.root_of_above hab
    | refl a => rfl
    | symm a b _ ih => exact ih.symm
    | trans a b c _ _ ihab ihbc => exact ihab.trans ihbc

end Forest

end RialtoGStreamer.Library
