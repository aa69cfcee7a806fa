import Mathlib.Algebra.Ring.Nat
import RialtoGStreamer.MediaPlayerManager.Model

/-!
# Members of a parent

A manager whose `m_client` is set is a member of its parent: the entry of that
parent holds the same client and counts it. What a step does to the map and the
managers is listed as moves; each of them replaces one manager and at most one
entry.
-/

namespace RialtoGStreamer.MediaPlayerManager

open Library

/-- `m_client` is set, and `m_currentGstBinParent` is `p`. -/
def Manager.isMember (p : Parent) (m : Manager) : Bool :=
  m.currentGstBinParent = p && m.client.isSome

/-- What the thread of a manager knows of the manager's own client. -/
def Manager.Settled (m : Manager) : Prop :=
  match m.pc with
  | .attaching _ clientCopy _ => clientCopy = m.client
  | .create _ | .destroyed => m.client = none
  | .control | .releasing _ => m.client.isSome = true
  | .idle | .attach _ | .verify | .release _ => True

theorem Manager.isMember_self {m : Manager} (h : m.client.isSome = true) :
    m.isMember m.currentGstBinParent = true := by
  simp [isMember, h]

theorem Manager.isMember_eq_true_iff {m : Manager} {p : Parent} :
    m.isMember p = true ↔ m.currentGstBinParent = p ∧ m.client.isSome = true := by
  simp [isMember]

theorem Manager.isMember_mk (p : Parent) (c : ℕ) (pc : ManagerPc) :
    Manager.isMember p { client := some c, currentGstBinParent := p, pc := pc } = true := by
  simp [isMember]

theorem After.settled_pc {m : Manager} (after : After) (h : m.client = none) :
    ({ m with pc := after.pc } : Manager).Settled := by
  cases after <;> simp [Manager.Settled, After.pc, h]

namespace State

@[simp] theorem managers_setInfo (s : State) (p : Parent) (info : Option ClientInfo) :
    (s.setInfo p info).managers = s.managers := rfl

@[simp] theorem infos_setManager (s : State) (i : ℕ) (m : Manager) :
    (s.setManager i m).infos = s.infos := rfl

@[simp] theorem infos_grant (s : State) (p : Parent) (i : ℕ) : (s.grant p i).infos = s.infos := rfl

@[simp] theorem managers_setManager (s : State) (i : ℕ) (m : Manager) :
    (s.setManager i m).managers = s.managers.set i m := rfl

@[simp] theorem lookup_setInfo (s : State) (p q : Parent) (info : Option ClientInfo) :
    (s.setInfo p info).infos.lookup q = if q = p then info else s.infos.lookup q := by
  cases info <;> simp [setInfo]

@[simp] theorem infos_stopStreaming (s : State) (client : ℕ) :
    (s.stopStreaming client).infos = s.infos := by
  unfold stopStreaming
  split <;> rfl

@[simp] theorem managers_stopStreaming (s : State) (client : ℕ) :
    (s.stopStreaming client).managers = s.managers := by
  unfold stopStreaming
  split <;> rfl

theorem isAlive_of_lookup {s : State} {p : Parent} {info : ClientInfo}
    (h : s.infos.lookup p = some info) : s.isAlive info.client = true := by
  have hmem := AList.mem_lookup_iff.mp h
  unfold isAlive
  rw [Bool.or_eq_true, List.any_eq_true]
  exact .inl ⟨⟨p, info⟩, hmem, by simp⟩

end State

/-- The members of a parent are those its entry counts, and they share its
client; the controller is one of them. -/
structure Counted (s : State) : Prop where
  client : ∀ m ∈ s.managers, ∀ c, m.client = some c →
    ∃ info, s.infos.lookup m.currentGstBinParent = some info ∧ info.client = c
  refCount : ∀ p info, s.infos.lookup p = some info →
    info.refCount.toNat = s.managers.countP (Manager.isMember p) ∧ info.refCount ≠ 0
  controller : ∀ p info i, s.infos.lookup p = some info → info.controller = some i →
    ∃ m, s.managers[i]? = some m ∧ m.isMember p = true
  settled : ∀ m ∈ s.managers, m.Settled

/-- A weak pointer of a manager is empty or alive. -/
theorem Counted.lock_eq {s : State} (h : Counted s) {m : Manager} (hm : m ∈ s.managers) :
    s.lock m.client = m.client.isSome := by
  cases hclient : m.client with
  | none => rfl
  | some c =>
      obtain ⟨info, hinfo, rfl⟩ := h.client m hm c hclient
      exact State.isAlive_of_lookup hinfo

theorem Counted.exists_entry {s : State} (h : Counted s) {m : Manager} (hm : m ∈ s.managers)
    {p : Parent} (hmember : m.isMember p = true) : ∃ info, s.infos.lookup p = some info := by
  obtain ⟨rfl, hsome⟩ := Manager.isMember_eq_true_iff.mp hmember
  obtain ⟨c, hc⟩ := Option.isSome_iff_exists.mp hsome
  obtain ⟨info, hinfo, -⟩ := h.client m hm c hc
  exact ⟨info, hinfo⟩

/-! ## Moves -/

/-- What a step does: it moves one thread on, or lets one manager join, found,
leave or take control of a parent. -/
inductive Move (s : State) (e : Event) : State → Prop
  | pc (i : ℕ) (m : Manager) (pc : ManagerPc) (hm : s.managers[i]? = some m)
      (hsettled : ({ m with pc := pc } : Manager).Settled) :
      Move s e (s.setManager i { m with pc := pc })
  | construct : Move s e { s with managers := s.managers ++ [{}] }
  | held (held : List ℕ) : Move s e { s with held := held }
  | destructClient (c : ℕ) (hc : c < s.clients) (halive : s.isAlive c = false) :
      Move s e (s.stopStreaming c)
  | fail (i : ℕ) (m : Manager) (hm : s.managers[i]? = some m) (hnone : m.client = none) :
      Move s e ({ s with clients := s.clients + 1 }.setManager i { m with pc := .verify })
  | found (i : ℕ) (m : Manager) (p : Parent) (hm : s.managers[i]? = some m)
      (hnone : m.client = none) (hp : s.infos.lookup p = none) :
      Move s e (({ s with clients := s.clients + 1, stored := s.stored ++ [s.clients] }.setInfo p
        (some ⟨s.clients, some i, 1⟩)).setManager i
        { client := some s.clients, currentGstBinParent := p, pc := .verify })
  | join (i : ℕ) (m : Manager) (p : Parent) (info : ClientInfo) (backendCreated : Bool)
      (he : e = .advance i backendCreated) (hm : s.managers[i]? = some m) (hpc : m.pc = .create p)
      (hnone : m.client = none) (hp : s.infos.lookup p = some info) :
      Move s e ((s.setInfo p (some { info with refCount := info.refCount + 1 })).setManager i
        { client := some info.client, currentGstBinParent := p, pc := .verify })
  | leave (i : ℕ) (m : Manager) (info : ClientInfo) (after : After)
      (hm : s.managers[i]? = some m) (hsome : m.client.isSome = true)
      (hp : s.infos.lookup m.currentGstBinParent = some info) (hcount : info.refCount - 1 ≠ 0) :
      Move s e ((s.setInfo m.currentGstBinParent (some { info with
        refCount := info.refCount - 1
        controller := if info.controller = some i then none else info.controller })).setManager i
        { client := none, currentGstBinParent := 0, pc := after.pc })
  | last (i : ℕ) (m : Manager) (info : ClientInfo) (after : After)
      (hm : s.managers[i]? = some m) (hsome : m.client.isSome = true)
      (hp : s.infos.lookup m.currentGstBinParent = some info) (hcount : info.refCount - 1 = 0) :
      Move s e (((((s.callClient .stop info.client).stopStreaming info.client).callClient
        .destroyClientBackend info.client).setInfo m.currentGstBinParent none).setManager i
        { client := none, currentGstBinParent := 0, pc := after.pc })
  | control (i : ℕ) (m : Manager) (info : ClientInfo) (hm : s.managers[i]? = some m)
      (hsome : m.client.isSome = true) (hp : s.infos.lookup m.currentGstBinParent = some info)
      (hcontroller : info.controller = some i) :
      Move s e ((s.grant m.currentGstBinParent i).setManager i { m with pc := .idle })
  | acquire (i : ℕ) (m : Manager) (info : ClientInfo) (hm : s.managers[i]? = some m)
      (hsome : m.client.isSome = true) (hp : s.infos.lookup m.currentGstBinParent = some info)
      (hcontroller : info.controller = none) :
      Move s e (((s.setInfo m.currentGstBinParent
        (some { info with controller := some i })).grant m.currentGstBinParent i).setManager i
        { m with pc := .idle })

theorem move_of_hasControl {s : State} {e : Event} {i : ℕ} {m : Manager}
    (hm : s.managers[i]? = some m)
    (hsome : m.client.isSome = true) :
    Move s e ((s.hasControl i m).setManager i { m with pc := .idle }) := by
  unfold State.hasControl
  dsimp only
  split
  · next info hp =>
      split
      · next hcontroller => exact .control i m info hm hsome hp hcontroller
      · unfold acquireControl
        by_cases hcontroller : info.controller = none
        · rw [if_pos hcontroller]
          exact .acquire i m info hm hsome hp hcontroller
        · rw [if_neg hcontroller]
          exact .pc i m .idle hm trivial
  · exact .pc i m .idle hm trivial

theorem move_of_createMediaPlayerClient {s : State} {i : ℕ} {m : Manager} {p : Parent}
    (hm : s.managers[i]? = some m) (hpc : m.pc = .create p) (hnone : m.client = none)
    (backendCreated : Bool) :
    Move s (.advance i backendCreated) (s.createMediaPlayerClient i m p backendCreated) := by
  unfold State.createMediaPlayerClient
  split
  · next info hp => exact .join i m p info backendCreated rfl hm hpc hnone hp
  · next hp =>
      cases backendCreated with
      | true => exact .found i m p hm hnone hp
      | false => exact .fail i m hm hnone

theorem move_of_releaseMediaPlayerClient {s : State} {e : Event} (h : Counted s) {i : ℕ}
    {m : Manager} (hm : s.managers[i]? = some m) (hsome : m.client.isSome = true)
    (after : After) :
    Move s e (s.releaseMediaPlayerClient i m after) := by
  obtain ⟨info, hp⟩ := h.exists_entry (List.mem_of_getElem? hm) (Manager.isMember_self hsome)
  unfold State.releaseMediaPlayerClient
  rw [hp]
  dsimp only
  split
  · next hcount => exact .last i m info after hm hsome hp hcount
  · next hcount => exact .leave i m info after hm hsome hp hcount

theorem move_of_advance {s t : State} (h : Counted s) {i : ℕ} {m : Manager}
    (hm : s.managers[i]? = some m) {backendCreated : Bool}
    (hstep : s.advance i m backendCreated = some t) : Move s (.advance i backendCreated) t := by
  have hmem := List.mem_of_getElem? hm
  have hsettled := h.settled m hmem
  have hlock := h.lock_eq hmem
  unfold Manager.Settled at hsettled
  unfold State.advance at hstep
  split at hstep
  · cases hstep
  · cases hstep
  · cases hstep
    exact .pc i m _ hm rfl
  · next p clientCopy currentParent hpc =>
      rw [hpc] at hsettled
      subst hsettled
      cases hstep
      refine .pc i m _ hm ?_
      rw [hlock]
      by_cases hsome : m.client.isSome = true
      · by_cases hsame : p = currentParent <;> simp [Manager.Settled, hsome, hsame]
      · have hnone := Option.not_isSome_iff_eq_none.mp hsome
        simp [Manager.Settled, hnone]
  · next p hpc =>
      rw [hpc] at hsettled
      cases hstep
      exact move_of_createMediaPlayerClient hm hpc hsettled backendCreated
  · cases hstep
    exact .pc i m _ hm trivial
  · next hpc =>
      rw [hpc] at hsettled
      cases hstep
      exact move_of_hasControl hm hsettled
  · next after hpc =>
      cases hstep
      refine .pc i m _ hm ?_
      rw [hlock]
      by_cases hsome : m.client.isSome = true
      · rw [if_pos hsome]
        exact hsome
      · rw [if_neg hsome]
        exact after.settled_pc (Option.not_isSome_iff_eq_none.mp hsome)
  · next after hpc =>
      rw [hpc] at hsettled
      cases hstep
      exact move_of_releaseMediaPlayerClient h hm hsettled after

theorem move_of_begin {s t : State} {e : Event} {i : ℕ} {pc : Manager → ManagerPc}
    (hsettled : ∀ m ∈ s.managers, ({ m with pc := pc m } : Manager).Settled)
    (hstep : s.begin i pc = some t) : Move s e t := by
  unfold State.begin at hstep
  split at hstep
  · next m hm =>
      split at hstep <;> cases hstep
      exact .pc i m _ hm (hsettled m (List.mem_of_getElem? hm))
  · cases hstep

theorem move_of_step {s t : State} {e : Event} (h : Counted s) (hstep : s.step e = some t) :
    Move s e t := by
  cases e with
  | construct =>
      cases hstep
      exact .construct
  | attachMediaPlayerClient _ _ | releaseMediaPlayerClient _ | destruct _ =>
      refine move_of_begin ?_ hstep
      exact fun _ _ ↦ trivial
  | hasControl i =>
      refine move_of_begin (fun m hm ↦ ?_) hstep
      rw [h.lock_eq hm]
      by_cases hsome : m.client.isSome = true <;> simp [Manager.Settled, hsome]
  | advance i backendCreated =>
      simp only [State.step] at hstep
      split at hstep
      · next m hm => exact move_of_advance h hm hstep
      · cases hstep
  | getMediaPlayerClient i =>
      simp only [State.step] at hstep
      split at hstep
      · split at hstep <;> cases hstep
        exact .held _
      · cases hstep
  | drop c =>
      simp only [State.step] at hstep
      split at hstep <;> cases hstep
      exact .held _
  | destructClient c =>
      simp only [State.step] at hstep
      split at hstep
      · next hc =>
          cases hstep
          exact .destructClient c hc.1 hc.2
      · cases hstep

/-! ## Counting -/

theorem countP_set_add {managers : List Manager} {i : ℕ} {m : Manager} (h : managers[i]? = some m)
    (m' : Manager) (q : Manager → Bool) :
    (managers.set i m').countP q + (if q m then 1 else 0) =
      managers.countP q + if q m' then 1 else 0 := by
  obtain ⟨hi, rfl⟩ := List.getElem?_eq_some_iff.mp h
  have hpos : q managers[i] = true → 0 < managers.countP q := fun hq ↦
    List.countP_pos_iff.mpr ⟨_, List.getElem_mem hi, hq⟩
  rw [List.countP_set hi]
  split
  · next hq =>
      have := hpos hq
      omega
  · omega

/-- Replacing one manager and the entry of one parent keeps the count, if both
the old and the new manager concern that parent alone. -/
theorem Counted.replace {s t : State} (h : Counted s) {i : ℕ} {m m' : Manager} (p : Parent)
    (info' : Option ClientInfo) (hm : s.managers[i]? = some m)
    (hmanagers : t.managers = s.managers.set i m')
    (hinfos : ∀ q, t.infos.lookup q = if q = p then info' else s.infos.lookup q)
    (hsettled : m'.Settled)
    (hold : ∀ q, m.isMember q = true → q = p) (hnew : ∀ q, m'.isMember q = true → q = p)
    (hclient : ∀ c, m'.client = some c → ∃ info, info' = some info ∧ info.client = c)
    (hkeep : ∀ j n info, j ≠ i → s.managers[j]? = some n → n.isMember p = true →
      s.infos.lookup p = some info → ∃ next, info' = some next ∧ next.client = info.client)
    (hcount : ∀ info, info' = some info →
      info.refCount.toNat = t.managers.countP (Manager.isMember p) ∧ info.refCount ≠ 0)
    (hcontroller : ∀ info j, info' = some info → info.controller = some j →
      ∃ n, t.managers[j]? = some n ∧ n.isMember p = true) : Counted t := by
  have hother : ∀ j, j ≠ i → t.managers[j]? = s.managers[j]? := by
    intro j hj
    rw [hmanagers]
    exact List.getElem?_set_ne (Ne.symm hj)
  have hself : ∀ n, t.managers[i]? = some n → n = m' := by
    intro n hn
    rw [hmanagers, List.getElem?_set_self (List.getElem?_eq_some_iff.mp hm).1] at hn
    exact (Option.some.inj hn).symm
  refine ⟨fun n hn c hc ↦ ?_, fun q info hinfo ↦ ?_, fun q info j hinfo hj ↦ ?_, fun n hn ↦ ?_⟩
  · obtain ⟨j, hj⟩ := List.getElem?_of_mem hn
    rcases eq_or_ne j i with rfl | hne
    · obtain rfl := hself n hj
      have hp := hnew _ (n.isMember_self (by simp [hc]))
      rw [hinfos, if_pos hp]
      exact hclient c hc
    · rw [hother j hne] at hj
      obtain ⟨info, hinfo, rfl⟩ := h.client n (List.mem_of_getElem? hj) c hc
      by_cases hp : n.currentGstBinParent = p
      · rw [hinfos, if_pos hp]
        rw [hp] at hinfo
        refine hkeep j n info hne hj ?_ hinfo
        rw [← hp]
        exact n.isMember_self (by simp [hc])
      · exact ⟨info, by rw [hinfos, if_neg hp, hinfo], rfl⟩
  · rw [hinfos] at hinfo
    split at hinfo
    · next hq =>
        rw [hq]
        exact hcount info hinfo
    · next hq =>
        have hcounts := countP_set_add hm m' (Manager.isMember q)
        rw [if_neg fun hmem ↦ hq (hold q hmem), if_neg fun hmem ↦ hq (hnew q hmem)] at hcounts
        rw [hmanagers]
        obtain ⟨hrefs, hne⟩ := h.refCount q info hinfo
        exact ⟨by omega, hne⟩
  · rw [hinfos] at hinfo
    split at hinfo
    · next hq =>
        rw [hq]
        exact hcontroller info j hinfo hj
    · next hq =>
        obtain ⟨n, hn, hmember⟩ := h.controller q info j hinfo hj
        rcases eq_or_ne j i with rfl | hne
        · rw [hm] at hn
          cases hn
          exact absurd (hold q hmember) hq
        · exact ⟨n, by rw [hother j hne, hn], hmember⟩
  · rw [hmanagers] at hn
    rcases List.mem_or_eq_of_mem_set hn with hn | rfl
    · exact h.settled n hn
    · exact hsettled

theorem Counted.of_pc {s t : State} (h : Counted s) {i : ℕ} {m : Manager} {pc : ManagerPc}
    (hm : s.managers[i]? = some m) (hsettled : ({ m with pc := pc } : Manager).Settled)
    (hmanagers : t.managers = s.managers.set i { m with pc := pc })
    (hinfos : ∀ q, t.infos.lookup q = s.infos.lookup q) : Counted t := by
  have hmem := List.mem_of_getElem? hm
  have hsame : ∀ q, ({ m with pc := pc } : Manager).isMember q = m.isMember q := fun _ ↦ rfl
  have hparent : ∀ q, m.isMember q = true → q = m.currentGstBinParent := fun q hq ↦
    (Manager.isMember_eq_true_iff.mp hq).1.symm
  have hcounts : ∀ q, t.managers.countP (Manager.isMember q) =
      s.managers.countP (Manager.isMember q) := by
    intro q
    have := countP_set_add hm { m with pc := pc } (Manager.isMember q)
    rw [hsame, ← hmanagers] at this
    omega
  refine h.replace m.currentGstBinParent _ hm hmanagers (fun q ↦ ?_) hsettled hparent hparent
    (fun c hc ↦ h.client m hmem c hc) (fun _ _ info _ _ _ hinfo ↦ ⟨info, hinfo, rfl⟩)
    (fun info hinfo ↦ ?_) (fun info j hinfo hj ↦ ?_)
  · split
    · next hq => rw [hinfos, hq]
    · exact hinfos q
  · rw [hcounts]
    exact h.refCount _ info hinfo
  · obtain ⟨n, hn, hmember⟩ := h.controller _ info j hinfo hj
    rw [hmanagers]
    rcases eq_or_ne j i with rfl | hne
    · rw [hm] at hn
      cases hn
      refine ⟨{ m with pc := pc }, ?_, hmember⟩
      exact List.getElem?_set_self (List.getElem?_eq_some_iff.mp hm).1
    · exact ⟨n, by rw [List.getElem?_set_ne (Ne.symm hne), hn], hmember⟩

/-! ## Moves and the count -/

namespace State

/-- The manager is attached to `p`: its client is alive, and `p` its parent. -/
def attached (s : State) (p : Parent) (m : Manager) : Bool :=
  m.currentGstBinParent = p && s.lock m.client

def attachedCount (s : State) (p : Parent) : ℕ :=
  s.managers.countP (s.attached p)

end State

theorem Counted.attached_eq {s : State} (h : Counted s) {m : Manager} (hm : m ∈ s.managers)
    (p : Parent) : s.attached p m = m.isMember p := by
  rw [State.attached, h.lock_eq hm]
  rfl

theorem Counted.attachedCount_eq {s : State} (h : Counted s) (p : Parent) :
    s.attachedCount p = s.managers.countP (Manager.isMember p) :=
  List.countP_congr fun _ hm ↦ by rw [h.attached_eq hm]

/-- No manager joins a parent that 2^32 - 1 managers are attached to. -/
def Room (s : State) : Event → Prop
  | .advance i _ => ∀ m p, s.managers[i]? = some m → m.pc = .create p →
      s.attachedCount p + 1 < 2 ^ 32
  | _ => True

theorem isMember_none {m : Manager} (h : m.client = none) (q p : Parent) :
    m.isMember q = true → q = p := by
  simp [Manager.isMember, h]

theorem eq_parent_of_isMember {m : Manager} {q : Parent} (h : m.isMember q = true) :
    q = m.currentGstBinParent :=
  (Manager.isMember_eq_true_iff.mp h).1.symm

theorem Counted.controller_of_ne {s : State} (h : Counted s) {i j : ℕ} {p : Parent}
    {info : ClientInfo} (hp : s.infos.lookup p = some info) (hj : info.controller = some j)
    (hne : j ≠ i) (m' : Manager) :
    ∃ n, (s.managers.set i m')[j]? = some n ∧ n.isMember p = true := by
  obtain ⟨n, hn, hmember⟩ := h.controller p info j hp hj
  exact ⟨n, by rw [List.getElem?_set_ne (Ne.symm hne), hn], hmember⟩

theorem counted_join {s : State} (h : Counted s) {i : ℕ} {m : Manager} {p : Parent}
    {info : ClientInfo} (hm : s.managers[i]? = some m) (hnone : m.client = none)
    (hp : s.infos.lookup p = some info) (hroom : s.attachedCount p + 1 < 2 ^ 32) :
    Counted ((s.setInfo p (some { info with refCount := info.refCount + 1 })).setManager i
      { client := some info.client, currentGstBinParent := p, pc := .verify }) := by
  obtain ⟨hrefs, hne⟩ := h.refCount p info hp
  have hnot : m.isMember p = false := by simp [Manager.isMember, hnone]
  rw [h.attachedCount_eq, ← hrefs] at hroom
  have hnat : (info.refCount + 1).toNat = info.refCount.toNat + 1 := by
    rw [UInt32.toNat_add]
    exact Nat.mod_eq_of_lt hroom
  refine h.replace p (some { info with refCount := info.refCount + 1 }) hm rfl
    (fun q ↦ by rw [State.infos_setManager, State.lookup_setInfo]) trivial
    (fun q ↦ isMember_none hnone q p) (fun q hq ↦ eq_parent_of_isMember hq) ?_ ?_ ?_ ?_
  · rintro _ ⟨⟩
    exact ⟨_, rfl, rfl⟩
  · intro j n info₀ _ _ _ hinfo₀
    rw [hp] at hinfo₀
    cases hinfo₀
    exact ⟨_, rfl, rfl⟩
  · rintro _ ⟨⟩
    refine ⟨?_, fun hzero ↦ ?_⟩
    · have hcounts := countP_set_add hm
        { client := some info.client, currentGstBinParent := p, pc := .verify }
        (Manager.isMember p)
      rw [hnot, if_neg Bool.false_ne_true, if_pos (Manager.isMember_mk p _ _)] at hcounts
      rw [hnat, hrefs]
      exact hcounts.symm
    · have hzero' : (info.refCount + 1).toNat = 0 := congrArg UInt32.toNat hzero
      omega
  · rintro _ j ⟨⟩ hj
    refine h.controller_of_ne hp hj (fun hji ↦ ?_) _
    obtain ⟨n, hn, hmember⟩ := h.controller p info j hp hj
    rw [hji, hm] at hn
    cases hn
    rw [hnot] at hmember
    cases hmember

theorem Counted.countP_eq_zero {s : State} (h : Counted s) {p : Parent}
    (hp : s.infos.lookup p = none) : s.managers.countP (Manager.isMember p) = 0 := by
  apply List.countP_eq_zero.mpr
  intro m hm hmember
  obtain ⟨info, hinfo⟩ := h.exists_entry hm hmember
  rw [hp] at hinfo
  cases hinfo

theorem counted_found {s : State} (h : Counted s) {i : ℕ} {m : Manager} {p : Parent}
    (hm : s.managers[i]? = some m) (hnone : m.client = none) (hp : s.infos.lookup p = none) :
    Counted (({ s with clients := s.clients + 1, stored := s.stored ++ [s.clients] }.setInfo p
      (some ⟨s.clients, some i, 1⟩)).setManager i
      { client := some s.clients, currentGstBinParent := p, pc := .verify }) := by
  refine h.replace p (some ⟨s.clients, some i, 1⟩) hm rfl
    (fun q ↦ by rw [State.infos_setManager, State.lookup_setInfo]) trivial
    (fun q ↦ isMember_none hnone q p) (fun q hq ↦ eq_parent_of_isMember hq) ?_ ?_ ?_ ?_
  · rintro _ ⟨⟩
    exact ⟨_, rfl, rfl⟩
  · intro j n info _ _ _ hinfo
    rw [hp] at hinfo
    cases hinfo
  · rintro _ ⟨⟩
    refine ⟨?_, (by decide : (1 : UInt32) ≠ 0)⟩
    have hcounts := countP_set_add hm
      { client := some s.clients, currentGstBinParent := p, pc := .verify } (Manager.isMember p)
    have hnot : m.isMember p = false := by simp [Manager.isMember, hnone]
    rw [hnot, if_neg Bool.false_ne_true, if_pos (Manager.isMember_mk p _ _),
      h.countP_eq_zero hp] at hcounts
    exact hcounts.symm
  · rintro _ j ⟨⟩ ⟨⟩
    refine ⟨_, List.getElem?_set_self (List.getElem?_eq_some_iff.mp hm).1, ?_⟩
    exact Manager.isMember_self rfl

theorem countP_leave {managers : List Manager} {i : ℕ} {m : Manager}
    (hm : managers[i]? = some m) (hsome : m.client.isSome = true) (pc : ManagerPc) :
    (managers.set i { client := none, currentGstBinParent := 0, pc := pc }).countP
        (Manager.isMember m.currentGstBinParent) + 1 =
      managers.countP (Manager.isMember m.currentGstBinParent) := by
  have hcounts := countP_set_add hm { client := none, currentGstBinParent := 0, pc := pc }
    (Manager.isMember m.currentGstBinParent)
  rw [if_pos (Manager.isMember_self hsome)] at hcounts
  simpa [Manager.isMember] using hcounts

theorem toNat_sub_one {n : UInt32} (h : n ≠ 0) : (n - 1).toNat + 1 = n.toNat := by
  have hpos : n.toNat ≠ 0 := fun hzero ↦ h (UInt32.toNat_inj.mp hzero)
  rw [UInt32.toNat_sub]
  have hlt := n.toNat_lt
  simp only [UInt32.toNat_one]
  omega

theorem counted_leave {s : State} (h : Counted s) {i : ℕ} {m : Manager} {info : ClientInfo}
    (after : After) (hm : s.managers[i]? = some m) (hsome : m.client.isSome = true)
    (hp : s.infos.lookup m.currentGstBinParent = some info) (hcount : info.refCount - 1 ≠ 0) :
    Counted ((s.setInfo m.currentGstBinParent (some { info with
      refCount := info.refCount - 1
      controller := if info.controller = some i then none else info.controller })).setManager i
      { client := none, currentGstBinParent := 0, pc := after.pc }) := by
  obtain ⟨hrefs, hne⟩ := h.refCount _ info hp
  refine h.replace m.currentGstBinParent (some { info with
      refCount := info.refCount - 1
      controller := if info.controller = some i then none else info.controller }) hm rfl
    (fun q ↦ by rw [State.infos_setManager, State.lookup_setInfo])
    (@After.settled_pc {} after rfl)
    (fun q hq ↦ eq_parent_of_isMember hq) (fun q ↦ isMember_none rfl q _) ?_ ?_ ?_ ?_
  · rintro _ ⟨⟩
  · intro j n info₀ _ _ _ hinfo₀
    rw [hp] at hinfo₀
    cases hinfo₀
    exact ⟨_, rfl, rfl⟩
  · rintro _ ⟨⟩
    refine ⟨?_, hcount⟩
    have hcounts := countP_leave hm hsome after.pc
    have hnat := toNat_sub_one hne
    change (info.refCount - 1).toNat = (s.managers.set i _).countP _
    omega
  · rintro _ j ⟨⟩ hj
    dsimp only at hj
    split at hj
    · cases hj
    · next hother =>
        refine h.controller_of_ne hp hj (fun hji ↦ ?_) _
        rw [hji] at hj
        exact hother hj

theorem counted_last {s t : State} (h : Counted s) {i : ℕ} {m : Manager} {info : ClientInfo}
    (after : After) (hm : s.managers[i]? = some m) (hsome : m.client.isSome = true)
    (hp : s.infos.lookup m.currentGstBinParent = some info) (hcount : info.refCount - 1 = 0)
    (hmanagers : t.managers =
      s.managers.set i { client := none, currentGstBinParent := 0, pc := after.pc })
    (hinfos : ∀ q, t.infos.lookup q =
      if q = m.currentGstBinParent then none else s.infos.lookup q) : Counted t := by
  obtain ⟨hrefs, hne⟩ := h.refCount _ info hp
  refine h.replace m.currentGstBinParent none hm hmanagers hinfos (@After.settled_pc {} after rfl)
    (fun q hq ↦ eq_parent_of_isMember hq) (fun q ↦ isMember_none rfl q _) ?_ ?_ ?_ ?_
  · rintro _ ⟨⟩
  -- Nobody else is a member, or the count would not be one.
  · intro j n _ hji hn hmember _
    have hnat := toNat_sub_one hne
    rw [hcount] at hnat
    have hcounts := countP_leave hm hsome after.pc
    have hpos : 0 < (s.managers.set i
        { client := none, currentGstBinParent := 0, pc := after.pc }).countP
          (Manager.isMember m.currentGstBinParent) := by
      refine List.countP_pos_iff.mpr ⟨n, ?_, hmember⟩
      apply List.mem_of_getElem? (i := j)
      rw [List.getElem?_set_ne (Ne.symm hji), hn]
    simp only [UInt32.toNat_zero] at hnat
    omega
  · rintro _ ⟨⟩
  · rintro _ _ ⟨⟩

theorem counted_acquire {s : State} (h : Counted s) {i : ℕ} {m : Manager} {info : ClientInfo}
    (hm : s.managers[i]? = some m) (hsome : m.client.isSome = true)
    (hp : s.infos.lookup m.currentGstBinParent = some info) :
    Counted (((s.setInfo m.currentGstBinParent
      (some { info with controller := some i })).grant m.currentGstBinParent i).setManager i
      { m with pc := .idle }) := by
  have hmember := Manager.isMember_self hsome
  refine h.replace m.currentGstBinParent (some { info with controller := some i }) hm rfl
    (fun q ↦ by rw [State.infos_setManager, State.infos_grant, State.lookup_setInfo]) trivial
    (fun q hq ↦ eq_parent_of_isMember hq) (fun q hq ↦ eq_parent_of_isMember hq) ?_ ?_ ?_ ?_
  · intro c hc
    obtain ⟨info₀, hinfo₀, rfl⟩ := h.client m (List.mem_of_getElem? hm) c hc
    rw [hp] at hinfo₀
    cases hinfo₀
    exact ⟨_, rfl, rfl⟩
  · intro j n info₀ _ _ _ hinfo₀
    rw [hp] at hinfo₀
    cases hinfo₀
    exact ⟨_, rfl, rfl⟩
  · rintro _ ⟨⟩
    obtain ⟨hrefs, hne⟩ := h.refCount _ info hp
    refine ⟨?_, hne⟩
    have hcounts := countP_set_add hm { m with pc := .idle }
      (Manager.isMember m.currentGstBinParent)
    have hmember' : Manager.isMember m.currentGstBinParent { m with pc := .idle } = true := hmember
    rw [if_pos hmember, if_pos hmember'] at hcounts
    rw [hrefs]
    exact (Nat.add_right_cancel hcounts).symm
  · rintro _ j ⟨⟩ ⟨⟩
    refine ⟨_, List.getElem?_set_self (List.getElem?_eq_some_iff.mp hm).1, ?_⟩
    exact Manager.isMember_self hsome

theorem counted_of_move {s t : State} {e : Event} (h : Counted s) (hroom : Room s e)
    (hm : Move s e t) : Counted t := by
  cases hm with
  | pc i m pc hm hsettled => exact h.of_pc hm hsettled rfl fun _ ↦ rfl
  | construct =>
      refine ⟨fun m hm c hc ↦ ?_, fun p info hp ↦ ?_, fun p info i hp hi ↦ ?_, fun m hm ↦ ?_⟩
      · rcases List.mem_append.mp hm with hm | hm
        · exact h.client m hm c hc
        · obtain rfl := List.mem_singleton.mp hm
          cases hc
      · rw [List.countP_append, List.countP_singleton, if_neg (by simp [Manager.isMember])]
        exact h.refCount p info hp
      · obtain ⟨m, hm, hmember⟩ := h.controller p info i hp hi
        refine ⟨m, ?_, hmember⟩
        rw [List.getElem?_append_left (List.getElem?_eq_some_iff.mp hm).1, hm]
      · rcases List.mem_append.mp hm with hm | hm
        · exact h.settled m hm
        · obtain rfl := List.mem_singleton.mp hm
          trivial
  | held held => exact ⟨h.client, h.refCount, h.controller, h.settled⟩
  | destructClient c hc halive =>
      refine ⟨?_, ?_, ?_, ?_⟩ <;>
        simp only [State.infos_stopStreaming, State.managers_stopStreaming]
      · exact h.client
      · exact h.refCount
      · exact h.controller
      · exact h.settled
  | fail i m hm hnone =>
      refine h.of_pc hm ?_ rfl fun _ ↦ rfl
      trivial
  | found i m p hm hnone hp => exact counted_found h hm hnone hp
  | join i m p info backendCreated he hm hpc hnone hp =>
      subst he
      exact counted_join h hm hnone hp (hroom m p hm hpc)
  | leave i m info after hm hsome hp hcount => exact counted_leave h after hm hsome hp hcount
  | last i m info after hm hsome hp hcount =>
      refine counted_last h after hm hsome hp hcount ?_ fun q ↦ ?_
      · simp [State.callClient]
      · simp [State.callClient]
  | control i m info hm hsome hp hcontroller =>
      refine h.of_pc hm ?_ rfl fun _ ↦ rfl
      trivial
  | acquire i m info hm hsome hp hcontroller => exact counted_acquire h hm hsome hp

end RialtoGStreamer.MediaPlayerManager
