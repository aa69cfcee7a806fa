import Mathlib.Data.List.Basic

/-!
# Ledgers of references

An owner gains and releases references to things, possibly several to one. The
ledger keeps what was gained equal to what is still owned together with what
was released, and enters apart the releases of references that were not owned.
-/

namespace RialtoGStreamer.Library

structure Ledger (ι : Type*) where
  gained : List ι := []
  released : List ι := []
  owned : List ι := []
  unowned : List ι := []
  conserved : gained.Perm (owned ++ released) := by exact List.Perm.nil

namespace Ledger

variable {ι : Type*}

def gain (L : Ledger ι) (a : ι) : Ledger ι :=
  { L with
    gained := a :: L.gained, owned := a :: L.owned
    conserved := L.conserved.cons a }

/-- The references of `l`, and no others, are owned, and no other was released. -/
structure Owns (L : Ledger ι) (l : List ι) : Prop where
  owned : L.owned.Perm l
  unowned : L.unowned = []

theorem Owns.perm {L : Ledger ι} {l l' : List ι} (h : L.Owns l) (hl : l.Perm l') : L.Owns l' :=
  ⟨h.owned.trans hl, h.unowned⟩

/-- What was gained and is not owned any more was released, once for each time. -/
theorem Owns.settled {L : Ledger ι} {l : List ι} (h : L.Owns l) :
    L.gained.Perm (l ++ L.released) :=
  L.conserved.trans (h.owned.append_right L.released)

theorem Owns.gain {L : Ledger ι} {l : List ι} (h : L.Owns l) (a : ι) :
    (L.gain a).Owns (a :: l) :=
  ⟨h.owned.cons a, h.unowned⟩

theorem Owns.not_shorter {L : Ledger ι} {l l' : List ι} (h : L.Owns l)
    (hlength : l'.length < l.length) : ¬L.Owns l' := by
  intro h'
  have heq := (h'.owned.symm.trans h.owned).length_eq
  omega

variable [DecidableEq ι]

def release (L : Ledger ι) (a : ι) : Ledger ι :=
  if h : a ∈ L.owned then
    { L with
      released := a :: L.released, owned := L.owned.erase a
      conserved := L.conserved.trans
        (((List.perm_cons_erase h).append_right L.released).trans List.perm_middle.symm) }
  else { L with unowned := a :: L.unowned }

theorem Owns.release {L : Ledger ι} {a : ι} {l : List ι} (h : L.Owns (a :: l)) :
    (L.release a).Owns l := by
  have hmem : a ∈ L.owned := h.owned.mem_iff.mpr List.mem_cons_self
  unfold Ledger.release
  rw [dif_pos hmem]
  exact ⟨List.cons_perm_iff_perm_erase.mp h.owned.symm |>.2.symm, h.unowned⟩

/-- A release takes one of the owned references, or a reference that is not owned. -/
theorem Owns.not_release {L : Ledger ι} {l : List ι} (h : L.Owns l) (a : ι) :
    ¬(L.release a).Owns l := by
  intro h'
  unfold Ledger.release at h'
  split at h'
  · next hmem =>
      have hlength := h'.owned.length_eq.trans h.owned.length_eq.symm
      rw [List.length_erase_of_mem hmem] at hlength
      have hpos := List.length_pos_of_mem hmem
      omega
  · exact List.cons_ne_nil _ _ h'.unowned

end Ledger

end RialtoGStreamer.Library
