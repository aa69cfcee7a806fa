import Mathlib.Data.List.Basic

/-!
# Machines that fire one event at a time

A machine is a partial step function: `none` says that the event is not
enabled. Threads, message deliveries and answers of the environment are all
events, so a run over a list of events is one interleaving. The invariant
rule and its conditional forms below are what the developments built on a
machine use; none of them inspects the step function.
-/

namespace RialtoGStreamer.Library

structure Machine (σ ε : Type*) where
  step : σ → ε → Option σ

namespace Machine

variable {σ ε : Type*} (M : Machine σ ε)

/-- Fire the events in order; `none` as soon as one of them is not enabled. -/
def run : σ → List ε → Option σ
  | s, [] => some s
  | s, e :: es => (M.step s e).bind fun t ↦ run t es

@[simp] theorem run_nil (s : σ) : M.run s [] = some s := rfl

theorem run_cons (s : σ) (e : ε) (es : List ε) :
    M.run s (e :: es) = (M.step s e).bind fun t ↦ M.run t es := rfl

theorem run_cons_eq_some_iff {s u : σ} {e : ε} {es : List ε} :
    M.run s (e :: es) = some u ↔ ∃ t, M.step s e = some t ∧ M.run t es = some u := by
  rw [run_cons, Option.bind_eq_some_iff]

theorem run_append (s : σ) (es fs : List ε) :
    M.run s (es ++ fs) = (M.run s es).bind fun t ↦ M.run t fs := by
  induction es generalizing s with
  | nil => rfl
  | cons e es ih =>
      rw [List.cons_append, run_cons, run_cons, Option.bind_assoc]
      exact congrArg _ (funext fun t ↦ ih t)

theorem run_append_eq_some_iff {s u : σ} {es fs : List ε} :
    M.run s (es ++ fs) = some u ↔ ∃ t, M.run s es = some t ∧ M.run t fs = some u := by
  rw [run_append, Option.bind_eq_some_iff]

/-- The same machine in an environment that fires only the events allowed by `D`. -/
def restrict (D : σ → ε → Prop) [∀ s e, Decidable (D s e)] : Machine σ ε where
  step s e := if D s e then M.step s e else none

theorem restrict_step_eq_some_iff {D : σ → ε → Prop} [∀ s e, Decidable (D s e)] {s t : σ}
    {e : ε} : (M.restrict D).step s e = some t ↔ D s e ∧ M.step s e = some t := by
  by_cases h : D s e <;> simp [restrict, h]

/-! ## Conditions on the steps of a run -/

/-- Every step of the run from `s` along `es` is taken under the condition `C`. -/
def Meets (C : σ → ε → Prop) : σ → List ε → Prop
  | _, [] => True
  | s, e :: es => C s e ∧ ∀ t, M.step s e = some t → Meets C t es

@[simp] theorem meets_nil (C : σ → ε → Prop) (s : σ) : M.Meets C s [] := trivial

theorem meets_cons_iff {C : σ → ε → Prop} {s t : σ} {e : ε} {es : List ε}
    (h : M.step s e = some t) : M.Meets C s (e :: es) ↔ C s e ∧ M.Meets C t es := by
  constructor
  · rintro ⟨hc, hrest⟩
    exact ⟨hc, hrest t h⟩
  · rintro ⟨hc, hrest⟩
    refine ⟨hc, fun u hu ↦ ?_⟩
    rw [h] at hu
    cases hu
    exact hrest

/-- A run is checked step by step. -/
instance decidableMeets {C : σ → ε → Prop} [∀ s e, Decidable (C s e)] :
    ∀ (s : σ) (es : List ε), Decidable (M.Meets C s es)
  | _, [] => isTrue trivial
  | s, e :: es =>
      match h : M.step s e with
      | none => decidable_of_iff (C s e) ⟨fun hc ↦ ⟨hc, by simp [h]⟩, fun hm ↦ hm.1⟩
      | some t =>
          have : Decidable (M.Meets C t es) := decidableMeets t es
          decidable_of_iff (C s e ∧ M.Meets C t es) (M.meets_cons_iff h).symm

theorem Meets.of_prefix {C : σ → ε → Prop} {s : σ} {es fs : List ε} (h : M.Meets C s es)
    (hfs : fs <+: es) : M.Meets C s fs := by
  induction fs generalizing s es with
  | nil => trivial
  | cons e fs ih =>
      obtain ⟨rest, rfl⟩ := hfs
      exact ⟨h.1, fun t ht ↦ ih (h.2 t ht) (List.prefix_append fs rest)⟩

theorem Meets.of_append {C : σ → ε → Prop} {s t : σ} {es fs : List ε}
    (h : M.Meets C s (es ++ fs)) (hrun : M.run s es = some t) : M.Meets C t fs := by
  induction es generalizing s with
  | nil =>
      cases hrun
      exact h
  | cons e es ih =>
      obtain ⟨u, hu, hrest⟩ := Option.bind_eq_some_iff.mp hrun
      exact ih (h.2 u hu) hrest

theorem Meets.mono {C D : σ → ε → Prop} {s : σ} {es : List ε} (h : M.Meets C s es)
    (hCD : ∀ s e, C s e → D s e) : M.Meets D s es := by
  induction es generalizing s with
  | nil => trivial
  | cons e es ih => exact ⟨hCD s e h.1, fun t ht ↦ ih (h.2 t ht)⟩

theorem Meets.and {C D : σ → ε → Prop} {s : σ} {es : List ε} (hC : M.Meets C s es)
    (hD : M.Meets D s es) : M.Meets (fun s e ↦ C s e ∧ D s e) s es := by
  induction es generalizing s with
  | nil => trivial
  | cons e es ih => exact ⟨⟨hC.1, hD.1⟩, fun t ht ↦ ih (hC.2 t ht) (hD.2 t ht)⟩

/-- A condition on the events alone is checked on the list of events. -/
theorem meets_of_forall_mem {C : ε → Prop} {es : List ε} (h : ∀ e ∈ es, C e) (s : σ) :
    M.Meets (fun _ e ↦ C e) s es := by
  induction es generalizing s with
  | nil => trivial
  | cons e es ih =>
      exact ⟨h e List.mem_cons_self,
        fun t _ ↦ ih (fun e' he' ↦ h e' (List.mem_cons_of_mem _ he')) t⟩

/-- `P` holds in the first state of the run and in every state it reaches. -/
def Always (P : σ → Prop) (s : σ) (es : List ε) : Prop :=
  ∀ pre t, pre <+: es → M.run s pre = some t → P t

theorem Always.last {P : σ → Prop} {s t : σ} {es : List ε} (h : M.Always P s es)
    (hrun : M.run s es = some t) : P t :=
  h es t (List.prefix_refl es) hrun

theorem Always.mono {P Q : σ → Prop} {s : σ} {es : List ε} (h : M.Always P s es)
    (hPQ : ∀ t, P t → Q t) : M.Always Q s es :=
  fun pre t hpre hrun ↦ hPQ t (h pre t hpre hrun)

theorem always_nil_iff {P : σ → Prop} {s : σ} : M.Always P s [] ↔ P s := by
  constructor
  · intro h
    exact h.last M rfl
  · intro h pre t hpre hrun
    obtain rfl := List.prefix_nil.mp hpre
    cases hrun
    exact h

theorem always_cons_iff {P : σ → Prop} {s t : σ} {e : ε} {es : List ε}
    (hstep : M.step s e = some t) :
    M.Always P s (e :: es) ↔ P s ∧ M.Always P t es := by
  constructor
  · intro h
    refine ⟨h [] s List.nil_prefix rfl, fun pre u hpre hrun ↦ ?_⟩
    refine h (e :: pre) u ((List.cons_prefix_cons).mpr ⟨rfl, hpre⟩) ?_
    exact M.run_cons_eq_some_iff.mpr ⟨t, hstep, hrun⟩
  · rintro ⟨hs, ht⟩ pre u hpre hrun
    cases pre with
    | nil =>
        cases hrun
        exact hs
    | cons e' pre =>
        obtain ⟨rfl, hpre'⟩ := List.cons_prefix_cons.mp hpre
        obtain ⟨t', hstep', hrun'⟩ := M.run_cons_eq_some_iff.mp hrun
        rw [hstep] at hstep'
        cases hstep'
        exact ht pre u hpre' hrun'

/-! ## Invariants -/

/-- An invariant kept by every step that meets `C` holds after every run whose
steps all meet `C`. -/
theorem invariant_of_meets {I : σ → Prop} {C : σ → ε → Prop}
    (hstep : ∀ s e t, I s → C s e → M.step s e = some t → I t)
    {s t : σ} {es : List ε} (hs : I s) (hC : M.Meets C s es)
    (hrun : M.run s es = some t) : I t := by
  induction es generalizing s with
  | nil =>
      cases hrun
      exact hs
  | cons e es ih =>
      obtain ⟨u, hu, hrest⟩ := M.run_cons_eq_some_iff.mp hrun
      exact ih (hstep s e u hs hC.1 hu) (hC.2 u hu) hrest

theorem always_of_meets {I P : σ → Prop} {C : σ → ε → Prop}
    (hstep : ∀ s e t, I s → C s e → M.step s e = some t → I t) (hP : ∀ s, I s → P s)
    {s : σ} {es : List ε} (hs : I s) (hC : M.Meets C s es) : M.Always P s es := by
  intro pre t hpre hrun
  exact hP t (M.invariant_of_meets hstep hs (hC.of_prefix M hpre) hrun)

theorem invariant {I : σ → Prop} (hstep : ∀ s e t, I s → M.step s e = some t → I t)
    {s t : σ} {es : List ε} (hs : I s) (hrun : M.run s es = some t) : I t := by
  have hmeets : M.Meets (fun _ _ ↦ True) s es := M.meets_of_forall_mem (fun _ _ ↦ trivial) s
  exact M.invariant_of_meets (fun s e t hs _ h ↦ hstep s e t hs h) hs hmeets hrun

/-- When a step from a state satisfying `J` and `P` keeps `J` under `C` and
reaches a `P`-state exactly under `C`, a run stays in `P` exactly if all its
steps meet `C`. -/
theorem always_iff_meets {J P : σ → Prop} {C : σ → ε → Prop}
    (hJ : ∀ s e t, J s → P s → C s e → M.step s e = some t → J t)
    (hP : ∀ s e t, J s → P s → M.step s e = some t → (P t ↔ C s e))
    {s t : σ} {es : List ε} (hs : J s) (hPs : P s) (hrun : M.run s es = some t) :
    M.Always P s es ↔ M.Meets C s es := by
  induction es generalizing s with
  | nil =>
      rw [always_nil_iff]
      simpa using hPs
  | cons e es ih =>
      obtain ⟨u, hu, hrest⟩ := M.run_cons_eq_some_iff.mp hrun
      rw [M.always_cons_iff hu, M.meets_cons_iff hu]
      constructor
      · rintro ⟨-, hall⟩
        have hPu : P u := hall [] u List.nil_prefix rfl
        have hCe : C s e := (hP s e u hs hPs hu).mp hPu
        exact ⟨hCe, (ih (hJ s e u hs hPs hCe hu) hPu hrest).mp hall⟩
      · rintro ⟨hCe, hmeets⟩
        have hPu : P u := (hP s e u hs hPs hu).mpr hCe
        exact ⟨hPs, (ih (hJ s e u hs hPs hCe hu) hPu hrest).mpr hmeets⟩

/-- Where no step lets the measure grow and each of the steps that count makes it
smaller, a run has no more of them than the measure says. -/
theorem countP_le_of_measure {I : σ → Prop} {μ : σ → ℕ} {p : ε → Bool}
    (hI : ∀ s e t, I s → M.step s e = some t → I t)
    (hμ : ∀ s e t, I s → M.step s e = some t → (if p e then 1 else 0) + μ t ≤ μ s)
    {s t : σ} {es : List ε} (hs : I s) (hrun : M.run s es = some t) :
    es.countP p + μ t ≤ μ s := by
  induction es generalizing s with
  | nil =>
      cases hrun
      simp
  | cons e es ih =>
      obtain ⟨u, hu, hrest⟩ := M.run_cons_eq_some_iff.mp hrun
      have htail := ih (hI s e u hs hu) hrest
      have hhead := hμ s e u hs hu
      rw [List.countP_cons]
      omega

/-- How many steps of the run from `s` along `es` are of the kind `q`. -/
def countSteps (q : σ → ε → Bool) : σ → List ε → ℕ
  | _, [] => 0
  | s, e :: es => (if q s e then 1 else 0) + ((M.step s e).map fun t ↦ countSteps q t es).getD 0

@[simp] theorem countSteps_nil (q : σ → ε → Bool) (s : σ) : M.countSteps q s [] = 0 := rfl

theorem countSteps_cons (q : σ → ε → Bool) {s t : σ} {e : ε} (es : List ε)
    (h : M.step s e = some t) :
    M.countSteps q s (e :: es) = (if q s e then 1 else 0) + M.countSteps q t es := by
  rw [countSteps, h]
  rfl

/-! ## One machine on top of another -/

/-- When each step of `M` is, through `f`, a run of `N`, so is each run of `M`. -/
theorem run_flatMap {τ δ : Type*} (N : Machine τ δ) {f : σ → τ} {g : ε → List δ}
    (hstep : ∀ s e t, M.step s e = some t → N.run (f s) (g e) = some (f t)) {s t : σ}
    {es : List ε} (hrun : M.run s es = some t) : N.run (f s) (es.flatMap g) = some (f t) := by
  induction es generalizing s with
  | nil =>
      cases hrun
      rfl
  | cons e es ih =>
      obtain ⟨u, hu, hrest⟩ := M.run_cons_eq_some_iff.mp hrun
      exact N.run_append_eq_some_iff.mpr ⟨f u, hstep s e u hu, ih hrest⟩

/-- When `N` can follow each step of `M`, by any number of its own, then also each run. -/
theorem exists_run_of_simulation {τ δ : Type*} (N : Machine τ δ) {R : σ → τ → Prop}
    (hstep : ∀ s e t a, R s a → M.step s e = some t → ∃ ds b, N.run a ds = some b ∧ R t b)
    {s t : σ} {a : τ} {es : List ε} (hs : R s a) (hrun : M.run s es = some t) :
    ∃ ds b, N.run a ds = some b ∧ R t b := by
  induction es generalizing s a with
  | nil =>
      cases hrun
      exact ⟨[], a, rfl, hs⟩
  | cons e es ih =>
      obtain ⟨u, hu, hrest⟩ := M.run_cons_eq_some_iff.mp hrun
      obtain ⟨ds, b, hb, hub⟩ := hstep s e u a hs hu
      obtain ⟨ds', c, hc, htc⟩ := ih hub hrest
      exact ⟨ds ++ ds', c, N.run_append_eq_some_iff.mpr ⟨b, hb, hc⟩, htc⟩

/-- `M` does what `N` does, no more and no less, and keeps a record beside it. -/
def Records {τ : Type*} (N : Machine τ ε) (f : σ → τ) : Prop :=
  ∀ s e, (M.step s e).map f = N.step (f s) e

section Records

variable {τ : Type*} {N : Machine τ ε} {f : σ → τ} {M}

theorem Records.run (h : M.Records N f) (s : σ) (es : List ε) :
    (M.run s es).map f = N.run (f s) es := by
  induction es generalizing s with
  | nil => rfl
  | cons e es ih =>
      rw [run_cons, run_cons, Option.map_bind, ← h s e, Option.bind_map]
      exact congrArg _ (funext fun t ↦ ih t)

/-- What does not depend on the record always holds with it or without it. -/
theorem Records.always_iff (h : M.Records N f) {P : τ → Prop} {s : σ} {es : List ε} :
    M.Always (fun t ↦ P (f t)) s es ↔ N.Always P (f s) es := by
  constructor
  · intro hall pre u hpre hrun
    rw [← h.run] at hrun
    obtain ⟨t, ht, rfl⟩ := Option.map_eq_some_iff.mp hrun
    exact hall pre t hpre ht
  · intro hall pre t hpre hrun
    apply hall pre (f t) hpre
    rw [← h.run, hrun]
    rfl

end Records

end Machine

end RialtoGStreamer.Library
