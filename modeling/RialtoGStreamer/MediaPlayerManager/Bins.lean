import RialtoGStreamer.Library.Forest
import RialtoGStreamer.MediaPlayerManager.Sharing

/-!
# The bins of a pipeline

The sinks attach with the oldest bin they are in. Whatever the managers do in the
meantime, two sinks that are attached have one client if they are in one pipeline,
and two clients if they are not.
-/

namespace RialtoGStreamer.MediaPlayerManager

open Library

/-- The hierarchy of the objects: elements, bins and whatever else may be a parent.
An object is below its parent, and a parent is not the null pointer. -/
structure Hierarchy where
  parent : Parent → Option Parent
  isBin : Parent → Bool
  depth : Parent → ℕ
  depth_lt : ∀ {o p}, parent o = some p → depth p < depth o

namespace Hierarchy

variable (H : Hierarchy)

def getOldestGstBinParent (element : Parent) : Parent :=
  match h : H.parent element with
  | some parent =>
      have := H.depth_lt h
      if H.isBin parent then getOldestGstBinParent parent else element
  | none => element
termination_by H.depth element

/-- The way up from bin to bin. -/
def bins : Forest Parent where
  up o := (H.parent o).filter H.isBin
  depth := H.depth
  depth_lt h := H.depth_lt (Option.filter_eq_some_iff.mp h).1

theorem above_bins_iff {o p : Parent} :
    H.bins.Above o p ↔ H.parent o = some p ∧ H.isBin p = true :=
  Option.filter_eq_some_iff

theorem getOldestGstBinParent_of_top {o : Parent} (h : H.bins.up o = none) :
    H.getOldestGstBinParent o = o := by
  rw [getOldestGstBinParent]
  split
  · next p hparent =>
      rw [if_neg]
      intro hbin
      have habove := H.above_bins_iff.mpr ⟨hparent, hbin⟩
      rw [Forest.Above, h] at habove
      cases habove
  · rfl

theorem getOldestGstBinParent_of_above {o p : Parent} (h : H.bins.Above o p) :
    H.getOldestGstBinParent o = H.getOldestGstBinParent p := by
  obtain ⟨hparent, hbin⟩ := H.above_bins_iff.mp h
  rw [getOldestGstBinParent]
  split
  · next q hsome =>
      rw [hparent] at hsome
      cases hsome
      exact if_pos hbin
  · next hnone => simp [hparent] at hnone

theorem getOldestGstBinParent_eq_root (element : Parent) :
    H.getOldestGstBinParent element = H.bins.root element := by
  induction element using H.bins.climb with
  | top a h => rw [H.getOldestGstBinParent_of_top h, H.bins.root_of_none h]
  | above a b h ih => rw [H.getOldestGstBinParent_of_above h, H.bins.root_of_above h, ih]

/-- What manager `i` attaches to, the manager of `sink i`. -/
def key (sink : ℕ → Parent) (i : ℕ) : Parent :=
  H.getOldestGstBinParent (sink i)

/-- Both are in one bin, however deep. -/
def Together (a b : Parent) : Prop :=
  Relation.EqvGen H.bins.Above a b

end Hierarchy

/-! ## The parents that the managers know -/

def After.parent : After → Option Parent
  | .create p => some p
  | .idle | .destroyed => none

/-- The parent that a thread carries with it. -/
def ManagerPc.parent : ManagerPc → Option Parent
  | .attach p | .attaching p _ _ | .create p => some p
  | .release after | .releasing after => after.parent
  | .idle | .verify | .control | .destroyed => none

@[simp] theorem After.parent_pc (after : After) : after.pc.parent = after.parent := by
  cases after <;> rfl

/-- A manager that is attached, or about to be, has `p` for its parent. -/
structure Manager.Keyed (p : Parent) (m : Manager) : Prop where
  pc : ∀ q ∈ m.pc.parent, q = p
  client : m.client.isSome = true → m.currentGstBinParent = p

/-- Manager `i` is attached to the bin that its sink is in. -/
def Keys (key : ℕ → Parent) : Event → Prop
  | .attachMediaPlayerClient i p => p = key i
  | _ => True

def Keyed (key : ℕ → Parent) (s : State) : Prop :=
  ∀ i (m : Manager), s.managers[i]? = some m → m.Keyed (key i)

theorem Manager.Keyed.of_pc {m : Manager} {p : Parent} (h : m.Keyed p) {pc : ManagerPc}
    (hpc : ∀ q ∈ pc.parent, q = p) : ({ m with pc := pc } : Manager).Keyed p :=
  ⟨hpc, h.client⟩

theorem Keyed.set {key : ℕ → Parent} {s t : State} (h : Keyed key s) {i : ℕ} {m' : Manager}
    (hm' : m'.Keyed (key i)) (ht : t.managers = s.managers.set i m') : Keyed key t := by
  intro j n hn
  rw [ht, List.getElem?_set] at hn
  split at hn
  · next hij =>
      split at hn
      · cases hn
        exact hij ▸ hm'
      · cases hn
  · exact h j n hn

@[simp] theorem managers_hasControl (s : State) (i : ℕ) (m : Manager) :
    (s.hasControl i m).managers = s.managers := by
  unfold State.hasControl
  dsimp only
  split
  · split
    · rfl
    · split <;> rfl
  · rfl

theorem keyed_create {key : ℕ → Parent} {s : State} (h : Keyed key s) {i : ℕ} {m : Manager}
    (hm : m.Keyed (key i)) (backendCreated : Bool) :
    Keyed key (s.createMediaPlayerClient i m (key i) backendCreated) := by
  have hattached : ∀ c, Manager.Keyed (key i)
      { client := some c, currentGstBinParent := key i, pc := .verify } :=
    fun c ↦ ⟨by rintro q ⟨⟩, fun _ ↦ rfl⟩
  unfold State.createMediaPlayerClient
  split
  · exact h.set (hattached _) rfl
  · cases backendCreated with
    | true => exact h.set (hattached _) rfl
    | false => exact h.set (hm.of_pc (by rintro q ⟨⟩)) rfl

theorem keyed_release {key : ℕ → Parent} {s : State} (h : Keyed key s) {i : ℕ} {m : Manager}
    (hm : m.Keyed (key i)) {after : After} (hafter : ∀ q ∈ after.parent, q = key i) :
    Keyed key (s.releaseMediaPlayerClient i m after) := by
  rw [← after.parent_pc] at hafter
  have hreleased : Manager.Keyed (key i)
      { client := none, currentGstBinParent := 0, pc := after.pc } :=
    ⟨hafter, by rintro ⟨⟩⟩
  unfold State.releaseMediaPlayerClient
  split
  · dsimp only
    split
    · refine h.set hreleased ?_
      simp [State.callClient]
    · exact h.set hreleased rfl
  · exact h.set (hm.of_pc hafter) rfl

theorem keyed_advance {key : ℕ → Parent} {s t : State} (h : Keyed key s) {i : ℕ} {m : Manager}
    (hm : s.managers[i]? = some m) {backendCreated : Bool}
    (hstep : s.advance i m backendCreated = some t) : Keyed key t := by
  have hkeyed := h i m hm
  have hpc := hkeyed.pc
  unfold State.advance at hstep
  cases hcase : m.pc with
  | idle | destroyed =>
      rw [hcase] at hstep
      cases hstep
  | attach p =>
      rw [hcase] at hstep hpc
      cases hstep
      refine h.set (hkeyed.of_pc ?_) rfl
      exact hpc
  | attaching p clientCopy currentParent =>
      rw [hcase] at hstep hpc
      cases hstep
      refine h.set (hkeyed.of_pc ?_) rfl
      split
      · exact hpc
      · split
        · exact hpc
        · rintro q ⟨⟩
  | create p =>
      rw [hcase] at hstep hpc
      cases hstep
      obtain rfl := hpc p rfl
      exact keyed_create h hkeyed backendCreated
  | verify =>
      rw [hcase] at hstep
      cases hstep
      exact h.set (hkeyed.of_pc (by rintro q ⟨⟩)) rfl
  | control =>
      rw [hcase] at hstep
      cases hstep
      have hidle : Manager.Keyed (key i) { m with pc := .idle } :=
        hkeyed.of_pc (by rintro q ⟨⟩)
      exact h.set hidle (by rw [State.managers_setManager, managers_hasControl])
  | release after =>
      rw [hcase] at hstep hpc
      cases hstep
      refine h.set (hkeyed.of_pc ?_) rfl
      split
      · exact hpc
      · rwa [after.parent_pc]
  | releasing after =>
      rw [hcase] at hstep hpc
      cases hstep
      exact keyed_release h hkeyed hpc

theorem keyed_begin {key : ℕ → Parent} {s t : State} (h : Keyed key s) {i : ℕ}
    {pc : Manager → ManagerPc} (hpc : ∀ m, ∀ q ∈ (pc m).parent, q = key i)
    (hstep : s.begin i pc = some t) : Keyed key t := by
  unfold State.begin at hstep
  split at hstep
  · next m hm =>
      split at hstep <;> cases hstep
      exact h.set ((h i m hm).of_pc (hpc m)) rfl
  · cases hstep

theorem keyed_of_step {key : ℕ → Parent} {s t : State} {e : Event} (h : Keyed key s)
    (hkeys : Keys key e) (hstep : s.step e = some t) : Keyed key t := by
  cases e with
  | construct =>
      cases hstep
      intro i m hm
      rw [List.getElem?_append] at hm
      split at hm
      · exact h i m hm
      · obtain rfl := List.mem_singleton.mp (List.mem_of_getElem? hm)
        exact ⟨by rintro q ⟨⟩, by rintro ⟨⟩⟩
  | attachMediaPlayerClient i p =>
      refine keyed_begin h (fun m q hq ↦ ?_) hstep
      cases hq
      exact hkeys
  | hasControl i =>
      refine keyed_begin h (fun m ↦ ?_) hstep
      split <;> rintro q ⟨⟩
  | releaseMediaPlayerClient i | destruct i =>
      refine keyed_begin h (fun m ↦ ?_) hstep
      rintro q ⟨⟩
  | advance i backendCreated =>
      simp only [State.step] at hstep
      split at hstep
      · next m hm => exact keyed_advance h hm hstep
      · cases hstep
  | getMediaPlayerClient i =>
      simp only [State.step] at hstep
      split at hstep
      · split at hstep <;> cases hstep
        exact h
      · cases hstep
  | drop c =>
      simp only [State.step] at hstep
      split at hstep <;> cases hstep
      exact h
  | destructClient c =>
      simp only [State.step] at hstep
      split at hstep <;> cases hstep
      intro i m hm
      rw [State.managers_stopStreaming] at hm
      exact h i m hm

/-! ## One client for each pipeline -/

/-- Of two attached managers the clients are the same if and only if the parents are. -/
theorem Shared.client_eq_iff {s : State} (h : Shared s) {m n : Manager} (hm : m ∈ s.managers)
    (hn : n ∈ s.managers) (hattached : s.lock m.client = true)
    (hattached' : s.lock n.client = true) :
    m.client = n.client ↔ m.currentGstBinParent = n.currentGstBinParent := by
  rw [h.counted.lock_eq hm] at hattached
  rw [h.counted.lock_eq hn] at hattached'
  obtain ⟨c, hc⟩ := Option.isSome_iff_exists.mp hattached
  obtain ⟨d, hd⟩ := Option.isSome_iff_exists.mp hattached'
  obtain ⟨info, hinfo, rfl⟩ := h.counted.client m hm c hc
  obtain ⟨info', hinfo', rfl⟩ := h.counted.client n hn d hd
  constructor
  · intro heq
    rw [hc, hd] at heq
    exact h.served.distinct _ _ info info' hinfo hinfo' (Option.some.inj heq)
  · intro heq
    rw [heq, hinfo'] at hinfo
    cases hinfo
    rw [hc, hd]

/-- Two attached sinks have one client if they are in one bin, and two if they are
not. -/
def SharesByBin (H : Hierarchy) (sink : ℕ → Parent) (s : State) : Prop :=
  ∀ i j (m n : Manager), s.managers[i]? = some m → s.managers[j]? = some n →
    s.lock m.client = true → s.lock n.client = true →
      (m.client = n.client ↔ H.Together (sink i) (sink j))

theorem sharesByBin {H : Hierarchy} {sink : ℕ → Parent} {s : State} (h : Shared s)
    (hkeyed : Keyed (H.key sink) s) : SharesByBin H sink s := by
  intro i j m n hm hn hattached hattached'
  have hmem := List.mem_of_getElem? hm
  have hmem' := List.mem_of_getElem? hn
  rw [h.client_eq_iff hmem hmem' hattached hattached']
  rw [h.counted.lock_eq hmem] at hattached
  rw [h.counted.lock_eq hmem'] at hattached'
  rw [(hkeyed i m hm).client hattached, (hkeyed j n hn).client hattached',
    Hierarchy.key, Hierarchy.key, H.getOldestGstBinParent_eq_root,
    H.getOldestGstBinParent_eq_root]
  exact H.bins.root_eq_root_iff

/-- In every run in which sink `i` attaches with its oldest bin, the sinks of one
pipeline share a client, and no others do. -/
theorem always_sharesByBin {H : Hierarchy} {sink : ℕ → Parent} {es : List Event}
    (hroom : machine.Meets Room {} es)
    (hkeys : ∀ e ∈ es, Keys (H.key sink) e) : machine.Always (SharesByBin H sink) {} es := by
  have hmeets := hroom.and machine (machine.meets_of_forall_mem hkeys {})
  have hstart : Shared {} ∧ Keyed (H.key sink) {} :=
    ⟨shared_start, by rintro i m ⟨⟩⟩
  refine machine.always_of_meets (I := fun s ↦ Shared s ∧ Keyed (H.key sink) s) ?_
    (fun s h ↦ sharesByBin h.1 h.2) hstart hmeets
  exact fun s e t h hc hstep ↦ ⟨shared_of_step h.1 hc.1 hstep, keyed_of_step h.2 hc.2 hstep⟩

/-- Sink 1 is in the bin 10 of the pipeline 11, sink 2 in the pipeline itself, and sink
3 in the pipeline 12. -/
def twoPipelines : Hierarchy where
  parent
    | 1 => some 10
    | 10 | 2 => some 11
    | 3 => some 12
    | _ => none
  isBin o := o = 10 ∨ o = 11 ∨ o = 12
  depth
    | 1 => 2
    | 10 | 2 | 3 => 1
    | _ => 0
  depth_lt {o p} h := by
    split at h <;> cases h <;> decide

def attachThree : List Event :=
  newcomer 0 11 ++ newcomer 1 11 ++ newcomer 2 12

theorem always_sharesByBin_attachThree :
    (machine.run {} attachThree).isSome = true ∧
      machine.Always (SharesByBin twoPipelines (· + 1)) {} attachThree := by
  have h11 : twoPipelines.getOldestGstBinParent 11 = 11 :=
    twoPipelines.getOldestGstBinParent_of_top rfl
  have h12 : twoPipelines.getOldestGstBinParent 12 = 12 :=
    twoPipelines.getOldestGstBinParent_of_top rfl
  have habove : ∀ o p, twoPipelines.bins.Above o p →
      twoPipelines.getOldestGstBinParent o = twoPipelines.getOldestGstBinParent p :=
    fun _ _ ↦ twoPipelines.getOldestGstBinParent_of_above
  have hfirst : twoPipelines.key (· + 1) 0 = 11 :=
    (habove 1 10 rfl).trans ((habove 10 11 rfl).trans h11)
  have hsecond : twoPipelines.key (· + 1) 1 = 11 := (habove 2 11 rfl).trans h11
  have hthird : twoPipelines.key (· + 1) 2 = 12 := (habove 3 12 rfl).trans h12
  refine ⟨by decide, always_sharesByBin ?_ ?_⟩
  · iterate 18
      refine (machine.meets_cons_iff rfl).mpr ⟨room_of_length (by decide) _, ?_⟩
    exact trivial
  · simp [attachThree, newcomer, Keys, hfirst, hsecond, hthird]

end RialtoGStreamer.MediaPlayerManager
