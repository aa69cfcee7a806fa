import RialtoGStreamer.PullMode.Accounting

/-!
# Pull requests under a server flush

`getFrontSample` returns nothing while `m_isServerFlushOngoing` is set, but
`isReadyToSendData` and `isEos` do not look at the flag. An end of stream that
arrives between `FLUSH_STOP` and `handleFlushCompleted` with no buffer before it
is therefore reported to the server in the middle of its flush.
-/

namespace RialtoGStreamer.PullMode

open Library NeedData

/-- No sample is handed over, the answer is that there is none, and the
synchronizer hears of nothing. -/
structure Silent (h : Handling) : Prop where
  attempts : h.attempts = []
  posted : h.posted = [.noAvailableSamples]
  notified : h.notified = 0

/-- A handling that found no sample is about to say so. -/
structure Barren (h : Handling) (p : Pull) : Prop where
  attempts : h.attempts = []
  posted : h.posted = []
  notified : h.notified = 0
  addedSegments : p.addedSegments = 0
  isEos : p.isEos = h.drained

/-- Where the puller may be in a handling that a flush covers. -/
def Stays (h : Handling) : PullerPc → Prop
  | .loop p | .front p | .eos p => Barren h p ∧ h.drained = false
  | .done p => Barren h p
  | .idle | .map _ _ | .parse _ _ | .add _ _ | .pop _ _ _ => False

/-- The answer of a handling that a flush covers. -/
structure Hushed (h : Handling) : Prop where
  attempts : h.attempts = []
  posted : h.posted = [if h.drained then .eos else .noAvailableSamples]
  notified : h.notified = if h.drained then 1 else 0

structure Muted (s : Accounts) : Prop where
  flushing : ∀ h, s.current = some h → h.covered = true → s.delegate.isServerFlushOngoing = true
  stays : ∀ h, s.current = some h → h.covered = true → Stays h s.delegate.puller
  finished : ∀ h ∈ s.finished, h.covered = true → Hushed h

theorem Hushed.silent_iff {h : Handling} (hh : Hushed h) : Silent h ↔ h.drained = false := by
  constructor
  · intro hsilent
    have hnotified := hsilent.notified
    rw [hh.notified] at hnotified
    cases hdrained : h.drained with
    | false => rfl
    | true =>
        rw [hdrained] at hnotified
        cases hnotified
  · intro hdrained
    have hposted := hh.posted
    have hnotified := hh.notified
    rw [hdrained] at hposted hnotified
    exact ⟨hh.attempts, hposted, hnotified⟩

/-! ## One step -/

theorem Barren.ask {h : Handling} {p : Pull} {s t : State} {e : Event} (hb : Barren h p)
    (he : e.asks = true) (hattempt : s.puller.attempt e = none) :
    Barren (h.record s e t) p ∧ (h.record s e t).drained = h.drained := by
  rw [record_of_asks he, hattempt, Option.toList_none, List.append_nil]
  exact ⟨⟨hb.attempts, hb.posted, hb.notified, hb.addedSegments, hb.isEos⟩, rfl⟩

theorem stays_covered {h : Handling} {pc : PullerPc} (hs : Stays h pc) (covered : Bool) :
    Stays { h with covered := covered } pc := by
  have hbarren : ∀ {p : Pull}, Barren h p → Barren { h with covered := covered } p :=
    fun hb ↦ ⟨hb.attempts, hb.posted, hb.notified, hb.addedSegments, hb.isEos⟩
  cases pc with
  | loop | front | eos => exact ⟨hbarren hs.1, hs.2⟩
  | done => exact hbarren hs
  | idle | map | parse | add | pop => exact hs

/-- Under the flush the puller turns away from the queue. -/
theorem stays_of_pull {h : Handling} {s t : State} {e : Event} (hs : Stays h s.puller)
    (hflush : s.isServerFlushOngoing = true) (hmove : PullMove s e t)
    (hbegin : ∀ frameCount, e ≠ .pullBuffer frameCount) (hpost : e ≠ .postHaveData) :
    Stays (h.record s e t) t.puller := by
  cases hmove with
  | begin frameCount => exact absurd rfl (hbegin frameCount)
  | ready p hpc =>
      rw [hpc] at hs
      have hask := hs.1.ask (e := .isReadyToSendData) (t := { s with puller := .front p }) rfl
        (by rw [hpc]; rfl)
      exact ⟨hask.1, hask.2.trans hs.2⟩
  | leave p hpc =>
      rw [hpc] at hs
      exact (hs.1.ask rfl (by rw [hpc]; rfl)).1
  | obtain p k hpc hserver =>
      -- `getFrontSample` has the guard.
      rw [hflush] at hserver
      cases hserver
  | nothing p hpc =>
      rw [hpc] at hs
      have hask := hs.1.ask (e := .getFrontSample) (t := { s with puller := .eos p }) rfl
        (by rw [hpc]; rfl)
      exact ⟨hask.1, hask.2.trans hs.2⟩
  | isEos p hpc =>
      rw [hpc] at hs
      rw [record_of_isEos hpc]
      refine ⟨hs.1.attempts, hs.1.posted, hs.1.notified, hs.1.addedSegments, ?_⟩
      change s.isEosReached = (h.drained || s.isEosReached)
      rw [hs.2, Bool.false_or]
  | map p k hpc | unmapped p k hpc | parse p k hpc | unparsed p k hpc | noSpace p k hpc
  | give p k status hstatus hpc | pop p k outcome hpc =>
      rw [hpc] at hs
      exact hs.elim
  | post => exact absurd rfl hpost

theorem hushed_of_post {h : Handling} {p : Pull} {s t : State} (hb : Barren h p)
    (hpc : s.puller = .done p) : Hushed (h.record s .postHaveData t) := by
  have hstatus : p.status = if h.drained then .eos else .noAvailableSamples := by
    rw [Pull.status, hb.isEos, hb.addedSegments, if_pos rfl]
  rw [record_of_post hb.posted hpc]
  refine ⟨hb.attempts, ?_, ?_⟩
  · change [p.status] = [if h.drained then _ else _]
    rw [hstatus]
  · change h.notified + [p.status].countP notifiesData = if h.drained then 1 else 0
    rw [hb.notified, hstatus]
    cases h.drained <;> rfl

theorem enter_of_idle {s : Accounts} {e : Event} (t : State) (hcurrent : s.current = none)
    (hbegin : ∀ frameCount, e ≠ .pullBuffer frameCount) :
    s.enter e t = { s with delegate := t } := by
  unfold Accounts.enter
  rw [hcurrent]
  split
  · exact absurd rfl (hbegin _)
  · next hsome => cases hsome
  · next hsome => cases hsome
  · rw [← hcurrent]

theorem covered_record {h : Handling} {s t : State} {e : Event}
    (hcovered : (h.record s e t).covered = true) :
    h.covered = true ∧ t.isServerFlushOngoing = true :=
  Bool.and_eq_true_iff.mp hcovered

theorem muted_begin {s : Accounts} {t : State} {frameCount : ℕ} (hm : Muted s)
    (hmove : PullMove s.delegate (.pullBuffer frameCount) t) :
    Muted (s.enter (.pullBuffer frameCount) t) := by
  cases hmove
  refine ⟨?_, ?_, hm.finished⟩
  · rintro _ ⟨⟩ hcovered
    exact hcovered
  · rintro _ ⟨⟩ -
    exact ⟨⟨rfl, rfl, rfl, rfl, rfl⟩, rfl⟩

theorem muted_post {s : Accounts} {t : State} {h : Handling} (hm : Muted s)
    (hcurrent : s.current = some h) (hmove : PullMove s.delegate .postHaveData t) :
    Muted (s.enter .postHaveData t) := by
  rw [enter_of_post t hcurrent]
  refine ⟨by rintro _ ⟨⟩, by rintro _ ⟨⟩, ?_⟩
  intro h' hmem hcovered
  rcases List.mem_append.mp hmem with hold | hlast
  · exact hm.finished h' hold hcovered
  · obtain rfl := List.mem_singleton.mp hlast
    have hstays := hm.stays h hcurrent (covered_record hcovered).1
    cases hmove with
    | post p hpc =>
        rw [hpc] at hstays
        exact hushed_of_post hstays hpc

theorem muted_pull {s : Accounts} {t : State} {e : Event} (hm : Muted s)
    (hmove : PullMove s.delegate e t) : Muted (s.enter e t) := by
  by_cases hbegin : ∃ frameCount, e = .pullBuffer frameCount
  · obtain ⟨frameCount, rfl⟩ := hbegin
    exact muted_begin hm hmove
  have hne : ∀ frameCount, e ≠ .pullBuffer frameCount :=
    fun frameCount he ↦ hbegin ⟨frameCount, he⟩
  cases hcurrent : s.current with
  | none =>
      rw [enter_of_idle t hcurrent hne]
      refine ⟨?_, ?_, hm.finished⟩
      · intro h hh
        exact absurd (hcurrent.symm.trans hh) (by simp)
      · intro h hh
        exact absurd (hcurrent.symm.trans hh) (by simp)
  | some h =>
      by_cases hpost : e = .postHaveData
      · subst hpost
        exact muted_post hm hcurrent hmove
      · rw [enter_of_pulling t hcurrent hne hpost]
        refine ⟨?_, ?_, hm.finished⟩
        · rintro _ ⟨⟩ hcovered
          exact (covered_record hcovered).2
        · rintro _ ⟨⟩ hcovered
          have hold := (covered_record hcovered).1
          exact stays_of_pull (hm.stays h hcurrent hold) (hm.flushing h hcurrent hold) hmove hne
            hpost

/-- The other threads may end the cover, and leave the puller where it is. -/
theorem muted_other {s : Accounts} {t : State} {e : Event} (hm : Muted s)
    (he : e.isPulling = false) (hpuller : t.puller = s.delegate.puller) :
    Muted (s.enter e t) := by
  rw [enter_of_other t he]
  refine ⟨fun h' hh' hcovered ↦ ?_, fun h' hh' hcovered ↦ ?_, hm.finished⟩
  · obtain ⟨h, -, rfl⟩ := Option.map_eq_some_iff.mp hh'
    exact (Bool.and_eq_true_iff.mp hcovered).2
  · obtain ⟨h, hcurrent, rfl⟩ := Option.map_eq_some_iff.mp hh'
    have hstays := hm.stays h hcurrent (Bool.and_eq_true_iff.mp hcovered).1
    rw [← hpuller] at hstays
    exact stays_covered hstays _

theorem muted_step {s t : Accounts} {e : Event} (hm : Muted s)
    (hstep : accounts.step s e = some t) : Muted t := by
  obtain ⟨delegate, hdelegate, rfl⟩ := Option.map_eq_some_iff.mp hstep
  cases turn_of_step hdelegate with
  | other he hpuller => exact muted_other hm he hpuller
  | pull hmove => exact muted_pull hm hmove

/-! ## Whole runs -/

/-- A pull request that a server flush covers from its beginning to its answer
stays silent exactly if `isEos` does not find the queue drained. -/
theorem silent_iff_of_run {s : Accounts} {es : List Event} (hrun : accounts.run {} es = some s) :
    ∀ h ∈ s.finished, h.covered = true → (Silent h ↔ h.drained = false) := by
  have hstart : Muted {} :=
    ⟨by rintro _ ⟨⟩, by rintro _ ⟨⟩, fun h hmem ↦ (List.not_mem_nil hmem).elim⟩
  have hm : Muted s := accounts.invariant (fun _ _ _ ↦ muted_step) hstart hrun
  exact fun h hmem hcovered ↦ (hm.finished h hmem hcovered).silent_iff

/-- After the local flush has stopped, `SEGMENT` and a buffer arrive, and a pull
request before the server has confirmed the flush. -/
def refilledUnderFlush : List Event :=
  [.startFlushing, .flushServer, .stopFlushing, .setSegment, .handleBuffer true,
    .pullBuffer 2, .isReadyToSendData, .getFrontSample, .isEos, .setEos, .postHaveData,
    .handleFlushCompleted]

def refilledRecord : Handling where
  frameCount := 2
  attempts := []
  posted := [.noAvailableSamples]
  steps := 4
  covered := true

theorem silent_refilledUnderFlush :
    ∃ s, accounts.run {} refilledUnderFlush = some s ∧ refilledRecord ∈ s.finished ∧
      Silent refilledRecord := by
  obtain ⟨s, hrun, hmem⟩ : ∃ s, accounts.run {} refilledUnderFlush = some s ∧
      refilledRecord ∈ s.finished :=
    exists_mem_finished (by decide +kernel)
  exact ⟨s, hrun, hmem, (silent_iff_of_run hrun _ hmem rfl).mpr rfl⟩

/-- The stream ends behind `FLUSH_STOP` without another buffer. -/
def endedUnderFlush : List Event :=
  [.startFlushing, .flushServer, .stopFlushing, .setSegment, .setEos, .pullBuffer 1,
    .isReadyToSendData, .getFrontSample, .isEos, .postHaveData]

def endedRecord : Handling where
  frameCount := 1
  attempts := []
  drained := true
  posted := [.eos]
  notified := 1
  steps := 4
  covered := true

theorem eos_reported_under_flush :
    ∃ s, accounts.run {} endedUnderFlush = some s ∧ endedRecord ∈ s.finished ∧
      endedRecord.covered = true ∧ ¬ Silent endedRecord := by
  obtain ⟨s, hrun, hmem⟩ : ∃ s, accounts.run {} endedUnderFlush = some s ∧
      endedRecord ∈ s.finished :=
    exists_mem_finished (by decide +kernel)
  refine ⟨s, hrun, hmem, rfl, ?_⟩
  intro hsilent
  have hposted := hsilent.posted
  cases hposted

end RialtoGStreamer.PullMode
