import Mathlib.Order.Basic
import RialtoGStreamer.MediaPlayerManager.Membership

/-!
# Sharing a client

The map, the managers, the calls on the clients and the results of `hasControl`
agree in every run in which no reference count wraps around.
-/

namespace RialtoGStreamer.MediaPlayerManager

open Library

/-- The calls that took effect on a client, in order. -/
def State.callsOf (s : State) (c : ℕ) : List ClientCall :=
  (s.calls.filter (·.2 = c)).map (·.1)

/-- An entry exists for the parents with an attached manager, counts them, and
is controlled by none or one of them; between two changes of the controller of
a parent at most one manager is told that it has control; and a client that was
put in the map is stopped and destroyed once no manager has it any more, and
not before. -/
structure Consistent (s : State) : Prop where
  entry : ∀ p, (s.infos.lookup p).isSome = true ↔ ∃ m ∈ s.managers, s.attached p m = true
  refCount : ∀ p info, s.infos.lookup p = some info → info.refCount.toNat = s.attachedCount p
  controller : ∀ p info i, s.infos.lookup p = some info → info.controller = some i →
    ∃ m, s.managers[i]? = some m ∧ s.attached p m = true
  control : ∀ g ∈ s.grants, ∀ g' ∈ s.grants, g.parent = g'.parent → g.epoch = g'.epoch →
    g.manager = g'.manager
  used : ∀ c ∈ s.stored, (∃ m ∈ s.managers, m.client = some c) → s.callsOf c = []
  unused : ∀ c ∈ s.stored, (∀ m ∈ s.managers, m.client ≠ some c) →
    s.callsOf c = [.stop, .stopStreaming, .destroyClientBackend]

/-! ## The calls on a client -/

/-- A client in the map has not been called, one that was in it has been stopped
and destroyed. -/
structure Served (s : State) : Prop where
  distinct : ∀ p q info info', s.infos.lookup p = some info → s.infos.lookup q = some info' →
    info.client = info'.client → p = q
  stored : ∀ p info, s.infos.lookup p = some info → info.client ∈ s.stored
  old : ∀ c ∈ s.stored, c < s.clients
  called : ∀ x ∈ s.calls, x.2 < s.clients
  present : ∀ p info, s.infos.lookup p = some info → s.callsOf info.client = []
  gone : ∀ c ∈ s.stored, (∀ p info, s.infos.lookup p = some info → info.client ≠ c) →
    s.callsOf c = [.stop, .stopStreaming, .destroyClientBackend]

theorem callsOf_callClient (s : State) (call : ClientCall) (c d : ℕ) :
    (s.callClient call c).callsOf d = s.callsOf d ++ if c = d then [call] else [] := by
  unfold State.callClient State.callsOf
  by_cases h : c = d <;> simp [h]

theorem callsOf_eq_nil {s : State} (h : ∀ x ∈ s.calls, x.2 < s.clients) {c : ℕ}
    (hc : s.clients ≤ c) : s.callsOf c = [] := by
  unfold State.callsOf
  rw [List.map_eq_nil_iff, List.filter_eq_nil_iff]
  intro x hx hxc
  have := h x hx
  simp only [decide_eq_true_eq] at hxc
  omega

theorem mem_calls_iff {s : State} {call : ClientCall} {c : ℕ} :
    (call, c) ∈ s.calls ↔ call ∈ s.callsOf c := by
  simp [State.callsOf]

theorem Served.congr {s t : State} (h : Served s)
    (hinfos : ∀ p, (t.infos.lookup p).map (·.client) = (s.infos.lookup p).map (·.client))
    (hstored : t.stored = s.stored) (hcalls : t.calls = s.calls)
    (hclients : s.clients ≤ t.clients) : Served t := by
  have hback : ∀ p info, t.infos.lookup p = some info →
      ∃ old, s.infos.lookup p = some old ∧ old.client = info.client := by
    intro p info hp
    have hsame := hinfos p
    rw [hp, Option.map_some, eq_comm, Option.map_eq_some_iff] at hsame
    exact hsame
  have hcallsOf : ∀ c, t.callsOf c = s.callsOf c := fun c ↦ by rw [State.callsOf, hcalls]; rfl
  refine ⟨?_, ?_, ?_, ?_, ?_, ?_⟩
  · intro p q info info' hp hq heq
    obtain ⟨old, hold, hclient⟩ := hback p info hp
    obtain ⟨old', hold', hclient'⟩ := hback q info' hq
    exact h.distinct p q old old' hold hold' (by rw [hclient, hclient', heq])
  · intro p info hp
    obtain ⟨old, hold, hclient⟩ := hback p info hp
    rw [hstored, ← hclient]
    exact h.stored p old hold
  · rw [hstored]
    exact fun c hc ↦ (h.old c hc).trans_le hclients
  · rw [hcalls]
    exact fun x hx ↦ (h.called x hx).trans_le hclients
  · intro p info hp
    obtain ⟨old, hold, hclient⟩ := hback p info hp
    rw [hcallsOf, ← hclient]
    exact h.present p old hold
  · intro c hc hnone
    rw [hstored] at hc
    rw [hcallsOf]
    apply h.gone c hc
    intro p old hold hclient
    have hsame := hinfos p
    rw [hold, Option.map_some, Option.map_eq_some_iff] at hsame
    obtain ⟨info, hinfo, hc'⟩ := hsame
    exact hnone p info hinfo (hc'.trans hclient)

theorem served_found {s : State} (h : Served s) (i : ℕ) {p : Parent}
    (hp : s.infos.lookup p = none) (m' : Manager) :
    Served (({ s with clients := s.clients + 1, stored := s.stored ++ [s.clients] }.setInfo p
      (some ⟨s.clients, some i, 1⟩)).setManager i m') := by
  have hlookup : ∀ q, (({ s with
      clients := s.clients + 1, stored := s.stored ++ [s.clients] }.setInfo p
        (some ⟨s.clients, some i, 1⟩)).setManager i m').infos.lookup q =
      if q = p then some ⟨s.clients, some i, 1⟩ else s.infos.lookup q := by
    intro q
    rw [State.infos_setManager, State.lookup_setInfo]
  have hnew : ∀ q info, s.infos.lookup q = some info → info.client ≠ s.clients := fun q info hq ↦
    (h.old _ (h.stored q info hq)).ne
  refine ⟨?_, ?_, ?_, ?_, ?_, ?_⟩
  · intro q r info info' hq hr heq
    rw [hlookup] at hq hr
    split at hq <;> split at hr
    · next hq' hr' => rw [hq', hr']
    · cases hq
      exact absurd heq.symm (hnew r info' hr)
    · cases hr
      exact absurd heq (hnew q info hq)
    · exact h.distinct q r info info' hq hr heq
  · intro q info hq
    rw [hlookup] at hq
    split at hq
    · cases hq
      exact List.mem_append_right _ List.mem_cons_self
    · exact List.mem_append_left _ (h.stored q info hq)
  · intro c hc
    rcases List.mem_append.mp hc with hc | hc
    · exact (h.old c hc).trans (Nat.lt_succ_self _)
    · obtain rfl := List.mem_singleton.mp hc
      exact Nat.lt_succ_self _
  · exact fun x hx ↦ (h.called x hx).trans (Nat.lt_succ_self _)
  · intro q info hq
    rw [hlookup] at hq
    split at hq
    · cases hq
      exact callsOf_eq_nil h.called le_rfl
    · exact h.present q info hq
  · intro c hc hnone
    rcases List.mem_append.mp hc with hc | hc
    · refine h.gone c hc fun q info hq ↦ hnone q info ?_
      rw [hlookup, if_neg, hq]
      rintro rfl
      rw [hp] at hq
      cases hq
    · obtain rfl := List.mem_singleton.mp hc
      exact absurd rfl (hnone p _ (by rw [hlookup, if_pos rfl]))

theorem callsOf_stopStreaming {s : State} {c : ℕ} (h : .stopStreaming ∉ s.callsOf c) (d : ℕ) :
    (s.stopStreaming c).callsOf d = s.callsOf d ++ if c = d then [.stopStreaming] else [] := by
  unfold State.stopStreaming
  rw [if_neg fun hmem ↦ h (mem_calls_iff.mp hmem), callsOf_callClient]

theorem callsOf_last {s : State} {c : ℕ} (h : s.callsOf c = []) (d : ℕ) :
    (((s.callClient .stop c).stopStreaming c).callClient .destroyClientBackend c).callsOf d =
      s.callsOf d ++ if c = d then [.stop, .stopStreaming, .destroyClientBackend] else [] := by
  rw [callsOf_callClient, callsOf_stopStreaming, callsOf_callClient]
  · by_cases hcd : c = d <;> simp [hcd]
  · simp [callsOf_callClient, h]

theorem calls_stopStreaming {s : State} {c : ℕ} {x : ClientCall × ℕ}
    (hx : x ∈ (s.stopStreaming c).calls) : x ∈ s.calls ∨ x = (.stopStreaming, c) := by
  unfold State.stopStreaming at hx
  split at hx
  · exact .inl hx
  · exact List.mem_append.mp hx |>.imp_right List.mem_singleton.mp

theorem stored_stopStreaming (s : State) (c : ℕ) : (s.stopStreaming c).stored = s.stored := by
  unfold State.stopStreaming
  split <;> rfl

theorem clients_stopStreaming (s : State) (c : ℕ) : (s.stopStreaming c).clients = s.clients := by
  unfold State.stopStreaming
  split <;> rfl

theorem served_last {s : State} (h : Served s) {p : Parent} {info : ClientInfo}
    (hp : s.infos.lookup p = some info) (i : ℕ) (m' : Manager) :
    Served (((((s.callClient .stop info.client).stopStreaming info.client).callClient
      .destroyClientBackend info.client).setInfo p none).setManager i m') := by
  have hclient := h.old _ (h.stored p info hp)
  have hpresent := h.present p info hp
  have hcallsOf := callsOf_last hpresent
  generalize ht : ((s.callClient .stop info.client).stopStreaming info.client).callClient
    .destroyClientBackend info.client = t at hcallsOf
  have hstored : t.stored = s.stored := by
    rw [← ht]
    exact stored_stopStreaming _ _
  have hclients : t.clients = s.clients := by
    rw [← ht]
    exact clients_stopStreaming _ _
  have hcalls : ∀ x ∈ t.calls, x ∈ s.calls ∨ x.2 = info.client := by
    intro x hx
    rw [← ht] at hx
    rcases List.mem_append.mp hx with hx | hx
    · rcases calls_stopStreaming hx with hx | rfl
      · apply (List.mem_append.mp hx).imp_right
        intro hx
        rw [List.mem_singleton.mp hx]
      · exact .inr rfl
    · rw [List.mem_singleton.mp hx]
      exact .inr rfl
  have hlookup : ∀ q, ((t.setInfo p none).setManager i m').infos.lookup q =
      if q = p then none else s.infos.lookup q := by
    intro q
    rw [State.infos_setManager, State.lookup_setInfo, ← ht]
    simp [State.callClient]
  refine ⟨?_, ?_, ?_, ?_, ?_, ?_⟩
  · intro q r info₁ info₂ hq hr
    rw [hlookup] at hq hr
    split at hq <;> split at hr <;> first | cases hq | cases hr | exact h.distinct q r _ _ hq hr
  · intro q info₁ hq
    rw [hlookup] at hq
    split at hq
    · cases hq
    · exact hstored ▸ h.stored q info₁ hq
  · intro c hc
    exact hclients ▸ h.old c (hstored ▸ hc)
  · intro x hx
    change x.2 < t.clients
    rw [hclients]
    rcases hcalls x hx with hx | hx
    · exact h.called x hx
    · rw [hx]
      exact hclient
  · intro q info₁ hq
    rw [hlookup] at hq
    split at hq
    · cases hq
    · next hqp =>
        change t.callsOf info₁.client = []
        rw [hcallsOf, h.present q info₁ hq, if_neg, List.nil_append]
        exact fun heq ↦ hqp (h.distinct q p info₁ info hq hp heq.symm)
  · intro c hc hnone
    change t.callsOf c = _
    rw [hcallsOf]
    by_cases hc' : info.client = c
    · rw [if_pos hc', ← hc', hpresent, List.nil_append]
    · rw [if_neg hc', List.append_nil]
      refine h.gone c (hstored ▸ hc) fun q info₁ hq heq ↦ ?_
      refine hnone q info₁ ?_ heq
      rw [hlookup, if_neg, hq]
      rintro rfl
      rw [hp] at hq
      cases hq
      exact hc' heq

/-- The destructor of a client that the map does not hold. -/
theorem served_destructClient {s : State} (h : Served s) {c : ℕ} (hc : c < s.clients)
    (halive : s.isAlive c = false) : Served (s.stopStreaming c) := by
  have habsent : ∀ p info, s.infos.lookup p = some info → info.client ≠ c := by
    intro p info hp heq
    have := State.isAlive_of_lookup hp
    rw [heq, halive] at this
    cases this
  by_cases hcalled : .stopStreaming ∈ s.callsOf c
  · unfold State.stopStreaming
    rw [if_pos (mem_calls_iff.mpr hcalled)]
    exact h
  · have hcallsOf := callsOf_stopStreaming hcalled
    refine ⟨?_, ?_, ?_, ?_, ?_, ?_⟩ <;>
      simp only [State.infos_stopStreaming, stored_stopStreaming, clients_stopStreaming]
    · exact h.distinct
    · exact h.stored
    · exact h.old
    · intro x hx
      rcases calls_stopStreaming hx with hx | rfl
      · exact h.called x hx
      · exact hc
    · intro p info hp
      rw [hcallsOf, h.present p info hp, if_neg (habsent p info hp).symm, List.nil_append]
    -- A stored client that is gone has been stopped already.
    · intro d hd hnone
      have hgone := h.gone d hd hnone
      rw [hcallsOf, hgone, if_neg, List.append_nil]
      rintro rfl
      rw [hgone] at hcalled
      exact hcalled (by simp)

/-- Rewriting an entry with its client keeps the clients of all the entries. -/
theorem lookup_client_setInfo {s : State} {p : Parent} {info info' : ClientInfo}
    (hp : s.infos.lookup p = some info) (hclient : info'.client = info.client) (q : Parent) :
    ((s.setInfo p (some info')).infos.lookup q).map (·.client) =
      (s.infos.lookup q).map (·.client) := by
  rw [State.lookup_setInfo]
  split
  · next hq => rw [hq, hp, Option.map_some, Option.map_some, hclient]
  · rfl

theorem served_of_move {s t : State} {e : Event} (h : Served s) (hm : Move s e t) :
    Served t := by
  cases hm with
  | pc | held | construct => exact h.congr (fun _ ↦ rfl) rfl rfl le_rfl
  | destructClient c hc halive => exact served_destructClient h hc halive
  | fail => exact h.congr (fun _ ↦ rfl) rfl rfl (Nat.le_succ _)
  | found i m p hm hnone hp => exact served_found h i hp _
  | join i m p info backendCreated he hm hpc hnone hp =>
      exact h.congr (lookup_client_setInfo hp rfl) rfl rfl le_rfl
  | leave i m info after hm hsome hp hcount =>
      exact h.congr (lookup_client_setInfo hp rfl) rfl rfl le_rfl
  | last i m info after hm hsome hp hcount => exact served_last h hp i _
  | control => exact h.congr (fun _ ↦ rfl) rfl rfl le_rfl
  | acquire i m info hm hsome hp hcontroller =>
      exact h.congr (lookup_client_setInfo hp rfl) rfl rfl le_rfl

/-! ## The grants of control -/

/-- A grant that no change of the controller followed is to the controller. -/
structure Granted (s : State) : Prop where
  past : ∀ g ∈ s.grants, g.epoch ≤ s.changes g.parent
  present : ∀ g ∈ s.grants, g.epoch = s.changes g.parent →
    (s.infos.lookup g.parent).bind (·.controller) = some g.manager
  sole : ∀ g ∈ s.grants, ∀ g' ∈ s.grants, g.parent = g'.parent → g.epoch = g'.epoch →
    g.manager = g'.manager

theorem granted_setInfo {s : State} (h : Granted s) (p : Parent) (info : Option ClientInfo) :
    Granted (s.setInfo p info) := by
  by_cases hsame : (s.infos.lookup p).map (·.controller) = info.map (·.controller)
  · have hchanges : (s.setInfo p info).changes = s.changes := if_pos hsame
    refine ⟨?_, ?_, h.sole⟩ <;> rw [hchanges]
    · exact h.past
    · intro g hg hepoch
      rw [State.lookup_setInfo, ← h.present g hg hepoch]
      split
      · next hgp =>
          rw [hgp]
          cases hold : s.infos.lookup p <;> cases info <;> simp_all
      · rfl
  · have hchanges : (s.setInfo p info).changes =
        Function.update s.changes p (s.changes p + 1) := if_neg hsame
    refine ⟨?_, ?_, h.sole⟩ <;> rw [hchanges] <;> intro g hg
    · have hpast := h.past g hg
      rcases eq_or_ne g.parent p with hgp | hgp
      · rw [hgp, Function.update_self]
        rw [hgp] at hpast
        omega
      · rw [Function.update_of_ne hgp]
        exact hpast
    · intro hepoch
      have hpast := h.past g hg
      rcases eq_or_ne g.parent p with hgp | hgp
      · rw [hgp, Function.update_self] at hepoch
        rw [hgp] at hpast
        omega
      · rw [Function.update_of_ne hgp] at hepoch
        rw [State.lookup_setInfo, if_neg hgp]
        exact h.present g hg hepoch

theorem granted_grant {s : State} (h : Granted s) {p : Parent} {i : ℕ}
    (hp : (s.infos.lookup p).bind (·.controller) = some i) : Granted (s.grant p i) := by
  have hsole : ∀ g ∈ s.grants, g.parent = p → g.epoch = s.changes p → g.manager = i := by
    intro g hg hgp hepoch
    have hpresent := h.present g hg (by rw [hgp, hepoch])
    rw [hgp, hp] at hpresent
    exact (Option.some.inj hpresent).symm
  have hmem : ∀ g, g ∈ (s.grant p i).grants ↔ g ∈ s.grants ∨ g = ⟨p, s.changes p, i⟩ := by
    simp [State.grant]
  refine ⟨?_, ?_, ?_⟩
  · intro g hg
    rcases (hmem g).mp hg with hg | rfl
    · exact h.past g hg
    · exact le_rfl
  · intro g hg hepoch
    rcases (hmem g).mp hg with hg | rfl
    · exact h.present g hg hepoch
    · exact hp
  · intro g hg g' hg' hparent hepoch
    rcases (hmem g).mp hg with hg | rfl <;> rcases (hmem g').mp hg' with hg' | rfl
    · exact h.sole g hg g' hg' hparent hepoch
    · exact hsole g hg hparent hepoch
    · exact (hsole g' hg' hparent.symm hepoch.symm).symm
    · rfl

theorem granted_of_move {s t : State} {e : Event} (h : Granted s) (hm : Move s e t) :
    Granted t := by
  have hwrite : ∀ (p : Parent) (info : Option ClientInfo), Granted (s.setInfo p info) :=
    granted_setInfo h
  cases hm with
  | pc | held | construct | fail => exact ⟨h.past, h.present, h.sole⟩
  | destructClient c =>
      unfold State.stopStreaming
      split
      · exact h
      · exact ⟨h.past, h.present, h.sole⟩
  | found i m p =>
      have hnext := hwrite p (some ⟨s.clients, some i, 1⟩)
      exact ⟨hnext.past, hnext.present, hnext.sole⟩
  | join i m p info =>
      have hnext := hwrite p (some { info with refCount := info.refCount + 1 })
      exact ⟨hnext.past, hnext.present, hnext.sole⟩
  | leave i m info =>
      have hnext := hwrite m.currentGstBinParent (some { info with
        refCount := info.refCount - 1
        controller := if info.controller = some i then none else info.controller })
      exact ⟨hnext.past, hnext.present, hnext.sole⟩
  | last i m info =>
      generalize hcalled : ((s.callClient .stop info.client).stopStreaming info.client).callClient
        .destroyClientBackend info.client = u
      have hu : Granted u := by
        rw [← hcalled]
        unfold State.stopStreaming
        split <;> exact ⟨h.past, h.present, h.sole⟩
      have hnext := granted_setInfo hu m.currentGstBinParent none
      exact ⟨hnext.past, hnext.present, hnext.sole⟩
  | control i m info hm hsome hp hcontroller =>
      have hnext :=
        granted_grant h (p := m.currentGstBinParent) (i := i) (by simp [hp, hcontroller])
      exact ⟨hnext.past, hnext.present, hnext.sole⟩
  | acquire i m info =>
      have hnext := granted_grant (i := i)
        (hwrite m.currentGstBinParent (some { info with controller := some i }))
        (p := m.currentGstBinParent) (by simp)
      exact ⟨hnext.past, hnext.present, hnext.sole⟩

/-! ## Runs -/

/-- The three invariants together. -/
structure Shared (s : State) : Prop where
  counted : Counted s
  served : Served s
  granted : Granted s

theorem shared_start : Shared {} := by
  refine ⟨⟨?_, ?_, ?_, ?_⟩, ⟨?_, ?_, ?_, ?_, ?_, ?_⟩, ⟨?_, ?_, ?_⟩⟩ <;> simp

theorem shared_of_step {s t : State} {e : Event} (h : Shared s) (hroom : Room s e)
    (hstep : s.step e = some t) : Shared t := by
  have hm := move_of_step h.counted hstep
  exact ⟨counted_of_move h.counted hroom hm, served_of_move h.served hm,
    granted_of_move h.granted hm⟩

/-- An entry has a member, for its count is not zero. -/
theorem Counted.exists_member {s : State} (h : Counted s) {p : Parent} {info : ClientInfo}
    (hp : s.infos.lookup p = some info) :
    ∃ m ∈ s.managers, m.isMember p = true ∧ m.client = some info.client := by
  obtain ⟨hcount, hne⟩ := h.refCount p info hp
  have hpos : 0 < s.managers.countP (Manager.isMember p) := by
    have := toNat_sub_one hne
    omega
  obtain ⟨m, hm, hmember⟩ := List.countP_pos_iff.mp hpos
  obtain ⟨hparent, hsome⟩ := Manager.isMember_eq_true_iff.mp hmember
  obtain ⟨c, hc⟩ := Option.isSome_iff_exists.mp hsome
  obtain ⟨info', hinfo', rfl⟩ := h.client m hm c hc
  rw [hparent, hp] at hinfo'
  cases hinfo'
  exact ⟨m, hm, hmember, hc⟩

theorem Shared.consistent {s : State} (h : Shared s) : Consistent s := by
  refine ⟨fun p ↦ ⟨fun hp ↦ ?_, ?_⟩, fun p info hp ↦ ?_, fun p info i hp hi ↦ ?_,
    h.granted.sole, ?_, ?_⟩
  · obtain ⟨info, hinfo⟩ := Option.isSome_iff_exists.mp hp
    obtain ⟨m, hm, hmember, -⟩ := h.counted.exists_member hinfo
    exact ⟨m, hm, by rw [h.counted.attached_eq hm, hmember]⟩
  · rintro ⟨m, hm, hattached⟩
    rw [h.counted.attached_eq hm] at hattached
    exact Option.isSome_iff_exists.mpr (h.counted.exists_entry hm hattached)
  · rw [h.counted.attachedCount_eq]
    exact (h.counted.refCount p info hp).1
  · obtain ⟨m, hm, hmember⟩ := h.counted.controller p info i hp hi
    exact ⟨m, hm, by rw [h.counted.attached_eq (List.mem_of_getElem? hm), hmember]⟩
  · rintro c hc ⟨m, hm, hclient⟩
    obtain ⟨info, hp, rfl⟩ := h.counted.client m hm c hclient
    exact h.served.present _ info hp
  · intro c hc hnone
    apply h.served.gone c hc
    intro p info hp heq
    obtain ⟨m, hm, -, hclient⟩ := h.counted.exists_member hp
    exact hnone m hm (heq ▸ hclient)

/-- In every run in which no manager joins 2^32 - 1 others, all agree throughout. -/
theorem always_consistent {es : List Event} (hroom : machine.Meets Room {} es) :
    machine.Always Consistent {} es :=
  machine.always_of_meets (fun _ _ _ h hroom hstep ↦ shared_of_step h hroom hstep)
    (fun _ h ↦ h.consistent) shared_start hroom

theorem room_of_length {s : State} (h : s.managers.length + 1 < 2 ^ 32) (e : Event) :
    Room s e := by
  unfold Room
  split
  · intro m p _ _
    have : s.attachedCount p ≤ s.managers.length := List.countP_le_length
    omega
  · trivial

/-- Two managers of one parent; the first one leaves it to the second. -/
def handOver : List Event :=
  [.construct, .attachMediaPlayerClient 0 1, .advance 0 true, .advance 0 true, .advance 0 true,
    .advance 0 true, .construct, .attachMediaPlayerClient 1 1, .advance 1 true, .advance 1 true,
    .advance 1 true, .advance 1 true, .releaseMediaPlayerClient 0, .advance 0 true,
    .advance 0 true, .hasControl 1, .advance 1 true]

theorem always_consistent_handOver :
    (machine.run {} handOver).isSome = true ∧ machine.Always Consistent {} handOver := by
  refine ⟨by decide, always_consistent ?_⟩
  unfold handOver
  iterate 17
    refine (machine.meets_cons_iff rfl).mpr ⟨room_of_length (by decide) _, ?_⟩
  exact trivial

/-! ## A reference count that wraps around -/

/-- A manager constructed and attached to `p`. -/
def newcomer (i : ℕ) (p : Parent) : List Event :=
  [.construct, .attachMediaPlayerClient i p, .advance i true, .advance i true, .advance i true,
    .advance i true]

/-- The state with one more manager. -/
def State.withLast (s : State) (m : Manager) : State :=
  { s with managers := s.managers ++ [m] }

theorem getElem?_withLast (s : State) (m : Manager) :
    (s.withLast m).managers[s.managers.length]? = some m :=
  List.getElem?_concat_length

theorem setManager_withLast (s : State) (m m' : Manager) :
    (s.withLast m).setManager s.managers.length m' = s.withLast m' := by
  simp [State.withLast, State.setManager]

theorem step_withLast (s : State) (m : Manager) (backendCreated : Bool) :
    machine.step (s.withLast m) (.advance s.managers.length backendCreated) =
      (s.withLast m).advance s.managers.length m backendCreated := by
  simp only [machine, State.step, getElem?_withLast]

theorem newcomer_run {s : State} {p : Parent} {info : ClientInfo}
    (hp : s.infos.lookup p = some info) :
    ∃ t, machine.run s (newcomer s.managers.length p) = some t ∧
      t.managers = s.managers ++ [⟨some info.client, p, .idle⟩] ∧
      t.infos.lookup p = some { info with refCount := info.refCount + 1 } := by
  generalize hnext : s.setInfo p (some { info with refCount := info.refCount + 1 }) = next
  have hlength : s.managers.length = next.managers.length := by
    rw [← hnext]
    rfl
  have hconstruct : machine.step s .construct = some (s.withLast {}) := rfl
  have hattach : machine.step (s.withLast {}) (.attachMediaPlayerClient s.managers.length p) =
      some (s.withLast { pc := .attach p }) := by
    simp [machine, State.step, State.begin, getElem?_withLast, setManager_withLast]
  have hread : machine.step (s.withLast { pc := .attach p }) (.advance s.managers.length true) =
      some (s.withLast { pc := .attaching p none 0 }) := by
    simp [step_withLast, State.advance, setManager_withLast]
  have htest : machine.step (s.withLast { pc := .attaching p none 0 })
      (.advance s.managers.length true) = some (s.withLast { pc := .create p }) := by
    simp [step_withLast, State.advance, setManager_withLast, State.lock]
  have hjoin : machine.step (s.withLast { pc := .create p }) (.advance s.managers.length true) =
      some (next.withLast ⟨some info.client, p, .verify⟩) := by
    have hlast : (s.withLast { pc := .create p }).infos.lookup p = some info := hp
    rw [step_withLast, ← hnext]
    change some (State.createMediaPlayerClient _ _ _ p true) = _
    unfold State.createMediaPlayerClient
    rw [hlast]
    exact congrArg some (setManager_withLast
      (s.setInfo p (some { info with refCount := info.refCount + 1 })) { pc := .create p }
      ⟨some info.client, p, .verify⟩)
  have hverify : machine.step (next.withLast ⟨some info.client, p, .verify⟩)
      (.advance s.managers.length true) = some (next.withLast ⟨some info.client, p, .idle⟩) := by
    rw [hlength, step_withLast, State.advance, setManager_withLast]
  refine ⟨next.withLast ⟨some info.client, p, .idle⟩, ?_, ?_, ?_⟩
  · simp only [newcomer, Machine.run_cons, hconstruct, hattach, hread, htest, hjoin, hverify,
      Option.bind_some, Machine.run_nil]
  · rw [← hnext]
    rfl
  · change next.infos.lookup p = _
    rw [← hnext, State.lookup_setInfo, if_pos rfl]

/-- Any number of managers can be attached to one parent; the count is cut to 32 bits. -/
theorem exists_crowd (n : ℕ) : ∃ es s, machine.run {} es = some s ∧
    s.managers = List.replicate (n + 1) ⟨some 0, 1, .idle⟩ ∧
      s.infos.lookup 1 = some ⟨0, some 0, UInt32.ofNat (n + 1)⟩ := by
  induction n with
  | zero => exact ⟨newcomer 0 1, _, rfl, rfl, rfl⟩
  | succ n ih =>
      obtain ⟨es, s, hrun, hmanagers, hp⟩ := ih
      obtain ⟨t, hrun', hmanagers', hp'⟩ := newcomer_run hp
      refine ⟨es ++ newcomer s.managers.length 1, t, ?_, ?_, ?_⟩
      · exact machine.run_append_eq_some_iff.mpr ⟨s, hrun, hrun'⟩
      · rw [hmanagers', hmanagers, ← List.replicate_succ']
      · rw [hp', UInt32.ofNat_add (n + 1) 1]
        rfl

/-- With 2^32 managers attached to a parent the count of its entry is zero. -/
theorem wrapped_count_reachable : ¬∀ (es : List Event) (s : State),
    machine.run {} es = some s → Consistent s := by
  intro h
  obtain ⟨es, s, hrun, hmanagers, hp⟩ := exists_crowd (2 ^ 32 - 1)
  have hattached : s.attached 1 ⟨some 0, 1, .idle⟩ = true := by
    have halive := State.isAlive_of_lookup hp
    simpa [State.attached, State.lock] using halive
  have hcount := (h es s hrun).refCount 1 _ hp
  rw [State.attachedCount, hmanagers, List.countP_replicate, if_pos hattached,
    UInt32.toNat_ofNat'] at hcount
  omega

end RialtoGStreamer.MediaPlayerManager
