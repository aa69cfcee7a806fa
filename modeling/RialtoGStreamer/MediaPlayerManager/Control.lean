import RialtoGStreamer.MediaPlayerManager.Bins

/-!
# Control of a client

A change of the playback rate is sent to all sinks of a pipeline, and each of them
asks `hasControl` before it passes the rate on to the client they share. One of them
does so: the controller, or the first to ask if there is none.
-/

namespace RialtoGStreamer.MediaPlayerManager

open Library

/-- The manager that controls the client of `p`. -/
def State.controller (s : State) (p : Parent) : Option ℕ :=
  (s.infos.lookup p).bind (·.controller)

/-- How often control of the client of `p` was granted. With each grant the sink calls
`setPlaybackRate` of the client. -/
def State.grantsOf (s : State) (p : Parent) : ℕ :=
  s.grants.countP (·.parent = p)

/-- The step is the section of `hasControl` of manager `i`, whose parent is `p`. -/
def asks (p : Parent) (i : ℕ) (s : State) : Event → Bool
  | .advance j _ =>
      j = i && (s.managers[j]?).any fun m ↦ m.pc = .control && m.currentGstBinParent = p
  | _ => false

/-- How often manager `i` asks for control of the client of `p`. -/
def asked (p : Parent) (i : ℕ) (s : State) (es : List Event) : ℕ :=
  machine.countSteps (asks p i) s es

/-- The manager that has control stays attached. -/
def Stays (p : Parent) (s : State) (e : Event) : Prop :=
  ∀ c ∈ s.controller p, ∀ t ∈ s.step e, (t.managers[c]?).any (Manager.isMember p) = true

instance (p : Parent) (s : State) (e : Event) : Decidable (Stays p s e) :=
  inferInstanceAs (Decidable (∀ c ∈ s.controller p, ∀ t ∈ s.step e, _ = true))

theorem lookup_of_controller {s : State} {p : Parent} {c : ℕ} (h : s.controller p = some c) :
    ∃ info, s.infos.lookup p = some info ∧ info.controller = some c :=
  Option.bind_eq_some_iff.mp h

theorem Counted.controller_member {s : State} (h : Counted s) {p : Parent} {c : ℕ}
    (hc : s.controller p = some c) : ∃ m, s.managers[c]? = some m ∧ m.isMember p = true := by
  obtain ⟨info, hinfo, hcontroller⟩ := lookup_of_controller hc
  exact h.controller p info c hinfo hcontroller

/-! ## One step -/

namespace State

@[simp] theorem grants_setManager (s : State) (i : ℕ) (m : Manager) :
    (s.setManager i m).grants = s.grants := rfl

@[simp] theorem grants_setInfo (s : State) (p : Parent) (info : Option ClientInfo) :
    (s.setInfo p info).grants = s.grants := rfl

@[simp] theorem grants_stopStreaming (s : State) (client : ℕ) :
    (s.stopStreaming client).grants = s.grants := by
  unfold stopStreaming
  split <;> rfl

@[simp] theorem controller_setManager (s : State) (i : ℕ) (m : Manager) (p : Parent) :
    (s.setManager i m).controller p = s.controller p := rfl

@[simp] theorem grantsOf_setManager (s : State) (i : ℕ) (m : Manager) (p : Parent) :
    (s.setManager i m).grantsOf p = s.grantsOf p := rfl

theorem grantsOf_grant (s : State) (q p : Parent) (i : ℕ) :
    (s.grant q i).grantsOf p = s.grantsOf p + if q = p then 1 else 0 := by
  simp [grantsOf, grant]

end State

/-- Whoever asks, the client has a controller then, and the one who asks is granted
control if it is the controller. -/
theorem hasControl_spec {s : State} {i : ℕ} {m : Manager} {info : ClientInfo}
    (hp : s.infos.lookup m.currentGstBinParent = some info) :
    ∃ c, (s.hasControl i m).controller m.currentGstBinParent = some c ∧
      ∀ p, (s.hasControl i m).grantsOf p =
        s.grantsOf p + if m.currentGstBinParent = p ∧ c = i then 1 else 0 := by
  unfold State.hasControl
  simp only [hp]
  split
  · next hcontroller =>
      refine ⟨i, by simp [State.controller, hp, hcontroller], fun p ↦ ?_⟩
      rw [State.grantsOf_grant]
      simp
  · next hother =>
      unfold acquireControl
      cases hcontroller : info.controller with
      | none =>
          refine ⟨i, by simp [State.controller], fun p ↦ ?_⟩
          simp only [if_true, State.grantsOf_grant]
          simp [State.grantsOf]
      | some c =>
          refine ⟨c, by simp [State.controller, hp, hcontroller], fun p ↦ ?_⟩
          have hne : c ≠ i := by
            rintro rfl
            exact hother hcontroller
          simp [hne]

/-- No other step of a manager grants control. -/
theorem grants_advance {s t : State} {i : ℕ} {m : Manager} {backendCreated : Bool}
    (hpc : m.pc ≠ .control) (hstep : s.advance i m backendCreated = some t) :
    t.grants = s.grants := by
  unfold State.advance at hstep
  split at hstep
  · cases hstep
  · cases hstep
  · cases hstep
    rfl
  · cases hstep
    rfl
  · cases hstep
    unfold State.createMediaPlayerClient
    split
    · rfl
    · cases backendCreated <;> rfl
  · cases hstep
    rfl
  · next hcontrol => exact absurd hcontrol hpc
  · cases hstep
    rfl
  · cases hstep
    unfold State.releaseMediaPlayerClient
    split
    · dsimp only
      split
      · simp [State.callClient]
      · rfl
    · rfl

theorem grants_begin {s t : State} {i : ℕ} {pc : Manager → ManagerPc}
    (hstep : s.begin i pc = some t) : t.grants = s.grants := by
  unfold State.begin at hstep
  split at hstep
  · split at hstep <;> cases hstep
    rfl
  · cases hstep

/-- A step in which a manager asks for control of the client of `p`, or one in which
nobody does. -/
inductive Asks (p : Parent) (s : State) (e : Event) (t : State) : Prop
  | ask (i c : ℕ) (hask : ∀ j, asks p j s e = decide (i = j))
      (hcontroller : t.controller p = some c)
      (hgrants : t.grantsOf p = s.grantsOf p + if c = i then 1 else 0)
  | none (hask : ∀ j, asks p j s e = false) (hgrants : t.grantsOf p = s.grantsOf p)

theorem asks_of_step {s t : State} {e : Event} (h : Counted s) (p : Parent)
    (hstep : s.step e = some t) : Asks p s e t := by
  have hnone : t.grants = s.grants → (∀ j, asks p j s e = false) → Asks p s e t :=
    fun hgrants hask ↦ .none hask (by rw [State.grantsOf, hgrants, State.grantsOf])
  cases e with
  | construct =>
      cases hstep
      exact hnone rfl fun _ ↦ rfl
  | attachMediaPlayerClient i q | hasControl i | releaseMediaPlayerClient i | destruct i =>
      exact hnone (grants_begin hstep) fun _ ↦ rfl
  | advance i backendCreated =>
      simp only [State.step] at hstep
      split at hstep
      · next m hm =>
          by_cases hpc : m.pc = .control
          · have hmem := List.mem_of_getElem? hm
            have hsettled := h.settled m hmem
            unfold Manager.Settled at hsettled
            rw [hpc] at hsettled
            obtain ⟨info, hinfo⟩ := h.exists_entry hmem (Manager.isMember_self hsettled)
            obtain ⟨c, hcontroller, hgrants⟩ := hasControl_spec (i := i) hinfo
            unfold State.advance at hstep
            rw [hpc] at hstep
            cases hstep
            by_cases hp : m.currentGstBinParent = p
            · subst hp
              refine .ask i c (fun j ↦ by simp [asks, hm, hpc]) hcontroller ?_
              rw [State.grantsOf_setManager, hgrants]
              simp
            · refine .none (fun j ↦ by simp [asks, hm, hp]) ?_
              rw [State.grantsOf_setManager, hgrants, if_neg fun hboth ↦ hp hboth.1]
              rfl
          · exact hnone (grants_advance hpc hstep) fun j ↦ by simp [asks, hm, hpc]
      · cases hstep
  | getMediaPlayerClient i =>
      simp only [State.step] at hstep
      split at hstep
      · split at hstep <;> cases hstep
        exact hnone rfl fun _ ↦ rfl
      · cases hstep
  | drop c =>
      simp only [State.step] at hstep
      split at hstep <;> cases hstep
      exact hnone rfl fun _ ↦ rfl
  | destructClient c =>
      simp only [State.step] at hstep
      split at hstep <;> cases hstep
      exact hnone (State.grants_stopStreaming s c) fun _ ↦ rfl

/-- A controller that stays attached stays the controller. -/
theorem controller_of_step {s t : State} {e : Event} {p : Parent} {c : ℕ} (h : Counted s)
    (ht : Counted t) (hstays : Stays p s e) (hstep : s.step e = some t)
    (hc : s.controller p = some c) : t.controller p = some c := by
  obtain ⟨m', hm', hmember⟩ := (Option.any_eq_true _ _).mp (hstays c hc t hstep)
  have hentry := ht.exists_entry (List.mem_of_getElem? hm') hmember
  obtain ⟨info, hinfo, hcontroller⟩ := lookup_of_controller hc
  cases move_of_step h hstep with
  | pc | construct | held | fail | control => exact hc
  | destructClient client =>
      rw [State.controller, State.infos_stopStreaming]
      exact hc
  | found i m q hm hnone hq =>
      have hne : p ≠ q := by
        rintro rfl
        rw [hinfo] at hq
        cases hq
      rw [State.controller, State.infos_setManager, State.lookup_setInfo, if_neg hne]
      exact hc
  | join i m q info' backendCreated he hm hpc hnone hq =>
      rw [State.controller, State.infos_setManager, State.lookup_setInfo]
      split
      · next heq =>
          subst heq
          rw [hinfo] at hq
          cases hq
          exact hcontroller
      · exact hc
  | leave i m info' after hm hsome hq hcount =>
      rw [State.controller, State.infos_setManager, State.lookup_setInfo]
      split
      · next heq =>
          rw [← heq, hinfo] at hq
          cases hq
          have hne : c ≠ i := by
            rintro rfl
            rw [State.managers_setManager, State.managers_setInfo,
              List.getElem?_set_self (List.getElem?_eq_some_iff.mp hm).1] at hm'
            cases hm'
            simp [Manager.isMember] at hmember
          simp [hcontroller, hne]
      · exact hc
  | last i m info' after hm hsome hq hcount =>
      obtain ⟨left, hleft⟩ := hentry
      rw [State.infos_setManager, State.lookup_setInfo] at hleft
      rw [State.controller, State.infos_setManager, State.lookup_setInfo]
      split at hleft
      · cases hleft
      · next hne =>
          rw [if_neg hne]
          simpa [State.callClient, State.controller] using hc
  | acquire i m info' hm hsome hq hnone =>
      rw [State.controller, State.infos_setManager, State.infos_grant, State.lookup_setInfo]
      split
      · next heq =>
          rw [← heq, hinfo] at hq
          cases hq
          rw [hcontroller] at hnone
          cases hnone
      · exact hc

/-! ## Runs -/

section Runs

variable {s t : State} {es : List Event} {p : Parent}

theorem shared_of_run (h : Shared s) (hroom : machine.Meets Room s es)
    (hrun : machine.run s es = some t) : Shared t :=
  machine.invariant_of_meets (fun _ _ _ hs hr hstep ↦ shared_of_step hs hr hstep) h hroom hrun

/-- While the controller stays, control does not pass to another. -/
theorem controller_of_run {c : ℕ} (h : Shared s) (hroom : machine.Meets Room s es)
    (hstays : machine.Meets (Stays p) s es) (hrun : machine.run s es = some t)
    (hc : s.controller p = some c) : t.controller p = some c := by
  induction es generalizing s with
  | nil =>
      cases hrun
      exact hc
  | cons e es ih =>
      obtain ⟨u, hu, hrest⟩ := machine.run_cons_eq_some_iff.mp hrun
      have hshared := shared_of_step h hroom.1 hu
      exact ih hshared (hroom.2 u hu) (hstays.2 u hu) hrest
        (controller_of_step h.counted hshared.counted hstays.1 hu hc)

/-- Control is granted as often as the one that has it in the end has asked for it. -/
theorem grantsOf_of_run {c : ℕ} (h : Shared s) (hroom : machine.Meets Room s es)
    (hstays : machine.Meets (Stays p) s es) (hrun : machine.run s es = some t)
    (hc : t.controller p = some c) : t.grantsOf p = s.grantsOf p + asked p c s es := by
  induction es generalizing s with
  | nil =>
      cases hrun
      rfl
  | cons e es ih =>
      obtain ⟨u, hu, hrest⟩ := machine.run_cons_eq_some_iff.mp hrun
      have hshared := shared_of_step h hroom.1 hu
      have htail := ih hshared (hroom.2 u hu) (hstays.2 u hu) hrest
      have hhead : u.grantsOf p = s.grantsOf p + if asks p c s e then 1 else 0 := by
        cases asks_of_step h.counted p hu with
        | ask i c' hask hcontroller hgrants =>
            have hlast := controller_of_run hshared (hroom.2 u hu) (hstays.2 u hu) hrest hcontroller
            obtain rfl := Option.some.inj (hc.symm.trans hlast)
            rw [hgrants, hask c]
            simp [eq_comm]
        | none hask hgrants => simp [hgrants, hask c]
      unfold asked at htail ⊢
      rw [machine.countSteps_cons _ es hu, htail, hhead, Nat.add_assoc]

/-- If anybody has asked, there is a controller. -/
theorem exists_controller_of_run {i : ℕ} (h : Shared s) (hroom : machine.Meets Room s es)
    (hstays : machine.Meets (Stays p) s es) (hrun : machine.run s es = some t)
    (hasked : 0 < asked p i s es) : ∃ c, t.controller p = some c := by
  induction es generalizing s with
  | nil => exact absurd hasked (Nat.lt_irrefl 0)
  | cons e es ih =>
      obtain ⟨u, hu, hrest⟩ := machine.run_cons_eq_some_iff.mp hrun
      have hshared := shared_of_step h hroom.1 hu
      cases asks_of_step h.counted p hu with
      | ask j c hask hcontroller hgrants =>
          exact ⟨c, controller_of_run hshared (hroom.2 u hu) (hstays.2 u hu) hrest hcontroller⟩
      | none hask hgrants =>
          apply ih hshared (hroom.2 u hu) (hstays.2 u hu) hrest
          rw [asked, machine.countSteps_cons _ es hu, hask i] at hasked
          simpa [asked] using hasked

end Runs

/-- The sinks of the pipeline 11 both ask, the second before the first is done. -/
def bothAsk : List Event :=
  [.hasControl 0, .hasControl 1, .advance 1 true, .advance 0 true]

/-- The state before they ask, and the one after it. -/
def beforeAsking : State :=
  (machine.run {} (newcomer 0 11 ++ newcomer 1 11)).get (by decide)

def afterAsking : State :=
  (machine.run beforeAsking bothAsk).get (by decide)

end RialtoGStreamer.MediaPlayerManager
