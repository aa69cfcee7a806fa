import Mathlib.Data.List.AList

/-!
# Finite tables

A table is an association list without duplicate keys. Proofs see a table
through `lookup` alone: every operation below has a lemma that says what can
be looked up afterwards, and a check over all the values is a statement about
what can be looked up.
-/

namespace RialtoGStreamer.Library

abbrev Table (κ α : Type*) := AList fun _ : κ ↦ α

namespace Table

variable {κ α : Type*} [DecidableEq κ]

@[simp] theorem lookup_insert (t : Table κ α) (j k : κ) (v : α) :
    (t.insert k v).lookup j = if j = k then some v else t.lookup j := by
  by_cases h : j = k
  · subst h
    simp
  · simp [h]

@[simp] theorem lookup_erase (t : Table κ α) (j k : κ) :
    (t.erase k).lookup j = if j = k then none else t.lookup j := by
  by_cases h : j = k
  · subst h
    simp
  · simp [h]

/-- Change the value of a key that is present. -/
def modify (k : κ) (f : α → α) (t : Table κ α) : Table κ α :=
  match t.lookup k with
  | none => t
  | some v => t.insert k (f v)

@[simp] theorem lookup_modify (t : Table κ α) (j k : κ) (f : α → α) :
    (modify k f t).lookup j = if j = k then (t.lookup j).map f else t.lookup j := by
  unfold modify
  by_cases h : j = k
  · subst h
    cases hv : t.lookup j <;> simp [hv]
  · cases hv : t.lookup k <;> simp [h]

theorem exists_lookup_modify_iff {p : α → Prop} {f : α → α} (hf : ∀ v, p (f v) ↔ p v)
    (t : Table κ α) (k : κ) :
    (∃ j v, (modify k f t).lookup j = some v ∧ p v) ↔ ∃ j v, t.lookup j = some v ∧ p v := by
  constructor
  · rintro ⟨j, v, hv, hp⟩
    rw [lookup_modify] at hv
    split at hv
    · obtain ⟨w, hw, rfl⟩ := Option.map_eq_some_iff.mp hv
      exact ⟨j, w, hw, (hf w).mp hp⟩
    · exact ⟨j, v, hv, hp⟩
  · rintro ⟨j, v, hv, hp⟩
    by_cases hj : j = k
    · exact ⟨j, f v, by rw [lookup_modify, if_pos hj, hv]; rfl, (hf v).mpr hp⟩
    · exact ⟨j, v, by rw [lookup_modify, if_neg hj, hv], hp⟩

theorem forall_lookup_modify_iff {p : α → Prop} {f : α → α} (hf : ∀ v, p (f v) ↔ p v)
    (t : Table κ α) (k : κ) :
    (∀ j v, (modify k f t).lookup j = some v → p v) ↔ ∀ j v, t.lookup j = some v → p v := by
  have hexists := exists_lookup_modify_iff (p := fun v ↦ ¬p v) (fun v ↦ not_congr (hf v)) t k
  simpa only [not_exists, not_and, not_not] using not_congr hexists

def all (p : α → Bool) (t : Table κ α) : Bool :=
  t.entries.all fun e ↦ p e.2

theorem all_eq_true_iff {p : α → Bool} {t : Table κ α} :
    all p t = true ↔ ∀ k v, t.lookup k = some v → p v = true := by
  simp only [all, List.all_eq_true]
  constructor
  · intro h k v hv
    exact h ⟨k, v⟩ (AList.mem_lookup_iff.mp hv)
  · rintro h ⟨k, v⟩ he
    exact h k v (AList.mem_lookup_iff.mpr he)

omit [DecidableEq κ] in
/-- How many values satisfy `p`. -/
def count (p : α → Bool) (t : Table κ α) : ℕ :=
  t.entries.countP fun e ↦ p e.2

theorem mem_keys_iff {k : κ} {t : Table κ α} : k ∈ t.keys ↔ ∃ v, t.lookup k = some v := by
  rw [← AList.mem_keys, ← AList.lookup_isSome, Option.isSome_iff_exists]

theorem count_eq_countP {p : α → Bool} {t : Table κ α} {l : List κ} (hl : l.Nodup)
    (hkeys : ∀ k v, t.lookup k = some v → k ∈ l) :
    count p t = l.countP fun k ↦ (t.lookup k).any p := by
  have hentries : count p t = t.keys.countP fun k ↦ (t.lookup k).any p := by
    unfold count AList.keys List.keys
    rw [List.countP_map]
    apply List.countP_congr
    intro e he
    have hlookup : t.lookup e.1 = some e.2 := AList.mem_lookup_iff.mpr he
    simp [hlookup]
  have hperm : (t.keys.filter fun k ↦ (t.lookup k).any p).Perm
      (l.filter fun k ↦ (t.lookup k).any p) := by
    apply (List.perm_ext_iff_of_nodup (t.keys_nodup.filter _) (hl.filter _)).mpr
    intro k
    rw [List.mem_filter, List.mem_filter]
    apply and_congr_left
    intro hany
    obtain ⟨v, hv, -⟩ := (Option.any_eq_true _ _).mp hany
    exact iff_of_true (mem_keys_iff.mpr ⟨v, hv⟩) (hkeys k v hv)
  rw [hentries, List.countP_eq_length_filter, List.countP_eq_length_filter, hperm.length_eq]

end Table

end RialtoGStreamer.Library
