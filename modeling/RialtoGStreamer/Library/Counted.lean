import Mathlib.Data.List.Dedup
import RialtoGStreamer.Library.Ledger

/-!
# Counted things that hold references themselves

A counted thing lives as long as somebody owns a reference to it, and owns its
contents meanwhile: whoever gives up the last reference releases the contents.
What is owned besides are references that no counted thing holds.
-/

namespace RialtoGStreamer.Library

variable {ι κ : Type*}

namespace Ledger

def gainAll (L : Ledger κ) (l : List κ) : Ledger κ :=
  l.foldl gain L

theorem Owns.gainAll {L : Ledger κ} {l : List κ} (h : L.Owns l) (l' : List κ) :
    (L.gainAll l').Owns (l' ++ l) := by
  induction l' generalizing L l with
  | nil => exact h
  | cons a l' ih => exact (ih (h.gain a)).perm List.perm_middle

variable [DecidableEq κ]

def releaseAll (L : Ledger κ) (l : List κ) : Ledger κ :=
  l.foldl release L

theorem Owns.releaseAll {L : Ledger κ} {l l' : List κ} (h : L.Owns (l' ++ l)) :
    (L.releaseAll l').Owns l := by
  induction l' generalizing L with
  | nil => exact h
  | cons a l' ih => exact ih h.release

end Ledger

structure Counted (ι κ : Type*) where
  references : Ledger ι := {}
  contents : Ledger κ := {}

namespace Counted

variable (content : ι → List κ)

/-- A new thing, which takes references to its contents. -/
def make (C : Counted ι κ) (a : ι) : Counted ι κ :=
  { references := C.references.gain a, contents := C.contents.gainAll (content a) }

def ref (C : Counted ι κ) (a : ι) : Counted ι κ :=
  { C with references := C.references.gain a }

/-- References that no counted thing holds. -/
def hold (C : Counted ι κ) (l : List κ) : Counted ι κ :=
  { C with contents := C.contents.gainAll l }

variable [DecidableEq ι]

/-- The references of `refs` are owned, and to their contents one reference for
each thing, besides those of `others`. -/
structure Holds (C : Counted ι κ) (refs : List ι) (others : List κ) : Prop where
  references : C.references.Owns refs
  contents : C.contents.Owns (refs.dedup.flatMap content ++ others)

section Gains

variable {content} {C : Counted ι κ} {refs refs' : List ι} {others others' : List κ} {a : ι}

theorem Holds.perm (h : C.Holds content refs others) (hrefs : refs.Perm refs')
    (hothers : others.Perm others') : C.Holds content refs' others' := by
  refine ⟨h.references.perm hrefs, h.contents.perm ?_⟩
  exact (hrefs.dedup.flatMap_right content).append hothers

theorem Holds.make (h : C.Holds content refs others) (ha : a ∉ refs) :
    (C.make content a).Holds content (a :: refs) others := by
  refine ⟨h.references.gain a, ?_⟩
  rw [List.dedup_cons_of_notMem ha, List.flatMap_cons, List.append_assoc]
  exact h.contents.gainAll (content a)

theorem Holds.ref (h : C.Holds content refs others) (ha : a ∈ refs) :
    (C.ref a).Holds content (a :: refs) others := by
  refine ⟨h.references.gain a, ?_⟩
  rw [List.dedup_cons_of_mem ha]
  exact h.contents

/-- A thing that is referred to has its contents. -/
theorem Holds.alive (h : C.Holds content refs others) (ha : a ∈ refs) :
    a ∈ C.references.owned ∧ ∀ b ∈ content a, b ∈ C.contents.owned := by
  refine ⟨h.references.owned.mem_iff.mpr ha, fun b hb ↦ h.contents.owned.mem_iff.mpr ?_⟩
  apply List.mem_append_left
  exact List.mem_flatMap.mpr ⟨a, List.mem_dedup.mpr ha, hb⟩

theorem Holds.hold (h : C.Holds content refs others) (l : List κ) :
    (C.hold l).Holds content refs (l ++ others) := by
  refine ⟨h.references, (h.contents.gainAll l).perm ?_⟩
  rw [← List.append_assoc, ← List.append_assoc]
  exact List.perm_append_comm.append_right others

end Gains

variable [DecidableEq κ]

def drop (C : Counted ι κ) (l : List κ) : Counted ι κ :=
  { C with contents := C.contents.releaseAll l }

/-- The thing goes with its last reference. -/
def unref (C : Counted ι κ) (a : ι) : Counted ι κ :=
  { references := C.references.release a
    contents :=
      if a ∈ (C.references.release a).owned then C.contents
      else C.contents.releaseAll (content a) }

def unrefAll (C : Counted ι κ) (l : List ι) : Counted ι κ :=
  l.foldl (unref content) C

variable {content} {C : Counted ι κ} {refs : List ι} {others : List κ} {a : ι}

theorem Holds.drop {l : List κ} (h : C.Holds content refs (l ++ others)) :
    (C.drop l).Holds content refs others := by
  refine ⟨h.references, Ledger.Owns.releaseAll (h.contents.perm ?_)⟩
  rw [← List.append_assoc, ← List.append_assoc]
  exact List.perm_append_comm.append_right others

theorem Holds.unref (h : C.Holds content (a :: refs) others) :
    (C.unref content a).Holds content refs others := by
  have hreferences : (C.references.release a).Owns refs := h.references.release
  have hcontents := h.contents
  refine ⟨hreferences, ?_⟩
  simp only [Counted.unref]
  split
  · next hmem =>
      rw [List.dedup_cons_of_mem (hreferences.owned.mem_iff.mp hmem)] at hcontents
      exact hcontents
  · next hmem =>
      have hlast : a ∉ refs := fun ha ↦ hmem (hreferences.owned.mem_iff.mpr ha)
      rw [List.dedup_cons_of_notMem hlast, List.flatMap_cons, List.append_assoc] at hcontents
      exact hcontents.releaseAll

theorem Holds.unrefAll {l : List ι} (h : C.Holds content (l ++ refs) others) :
    (C.unrefAll content l).Holds content refs others := by
  induction l generalizing C with
  | nil => exact h
  | cons a l ih => exact ih h.unref

end Counted

end RialtoGStreamer.Library
