import RialtoGStreamer.PullMode.Handling

/-!
# What a pull request accounts for

A handling that no flush disturbs, step by step: the samples it popped are those
it handed over or gave up, in the order of the queue, and the counter that
decides its status counts the segments that `addSegment` did not refuse for lack
of space, whether it took them or failed.
-/

namespace RialtoGStreamer.PullMode

open Library NeedData

namespace Attempt

/-- The sample is popped afterwards. -/
def isHanded : Attempt → Bool
  | .added .noSpace => false
  | .unmapped | .unparsed | .added .ok | .added .error => true

/-- The segment is counted. -/
def isCounted : Attempt → Bool
  | .added .ok | .added .error => true
  | .unmapped | .unparsed | .added .noSpace => false

/-- A sample may leave the queue for this. -/
def releases : Attempt → Bool
  | .unmapped | .unparsed | .added .ok => true
  | .added .noSpace | .added .error => false

end Attempt

namespace Handling

/-- The samples to be popped, in the order of the iterations. -/
def handed (h : Handling) : List ℕ :=
  (h.attempts.filter (·.2.isHanded)).map Prod.fst

def counted (h : Handling) : ℕ :=
  h.attempts.countP (·.2.isCounted)

/-- The segments that `addSegment` took. -/
def segments (h : Handling) : List ℕ :=
  (h.attempts.filter (·.2 = .added .ok)).map Prod.fst

/-- The status that the request is owed. -/
def due (h : Handling) : MediaSourceStatus :=
  if h.drained then .eos else if h.segments ≠ [] then .ok else .noAvailableSamples

end Handling

/-- One answer, the one that is due; at most as many segments as were asked for;
and no sample lost that was not taken, unless it could not be mapped or parsed. -/
structure Accounted (h : Handling) : Prop where
  posted : h.posted = [h.due]
  segments : h.segments.length ≤ h.frameCount
  left : ∀ k ∈ h.left, ∃ attempt, (k, attempt) ∈ h.attempts ∧ attempt.releases = true

/-- A handling in progress can go on, and ends after a bounded number of steps. -/
structure Proceeds (s : Accounts) (h : Handling) : Prop where
  steps : h.steps ≤ 6 * h.frameCount + 1
  enabled : ∃ e, e.isPulling = true ∧ (s.step e).isSome = true

/-- What is known of a handling that is over. -/
structure Complete (h : Handling) : Prop where
  handed : h.handed = h.left
  nodup : h.left.Nodup
  posted : h.posted =
    [if h.drained then .eos else if h.counted = 0 then .noAvailableSamples else .ok]
  attempts : h.attempts.length ≤ h.frameCount

/-! ## Handlings that are over -/

theorem mem_handed_iff {h : Handling} {k : ℕ} :
    k ∈ h.handed ↔ ∃ attempt, (k, attempt) ∈ h.attempts ∧ attempt.isHanded = true := by
  simp [Handling.handed]

/-- An iteration that popped its sample is the only one that did. -/
theorem Complete.attempt_unique {h : Handling} (hc : Complete h) {k : ℕ} {a b : Attempt}
    (ha : (k, a) ∈ h.attempts) (hb : (k, b) ∈ h.attempts) (ha' : a.isHanded = true)
    (hb' : b.isHanded = true) : a = b := by
  have hnodup : ((h.attempts.filter (·.2.isHanded)).map Prod.fst).Nodup := by
    have hleft := hc.nodup
    rwa [← hc.handed] at hleft
  have hmem : ∀ {c : Attempt}, (k, c) ∈ h.attempts → c.isHanded = true →
      (k, c) ∈ h.attempts.filter (·.2.isHanded) := by
    intro c hc hc'
    exact List.mem_filter.mpr ⟨hc, hc'⟩
  have hinj := List.inj_on_of_nodup_map hnodup (hmem ha ha') (hmem hb hb') rfl
  exact (Prod.mk.inj hinj).2

theorem counted_eq_length_segments {h : Handling}
    (hok : ∀ attempt ∈ h.attempts, attempt.2 ≠ .added .error) :
    h.counted = h.segments.length := by
  unfold Handling.counted Handling.segments
  rw [List.length_map, ← List.countP_eq_length_filter]
  apply List.countP_congr
  rintro ⟨k, attempt⟩ hmem
  have hne := hok _ hmem
  cases attempt with
  | unmapped | unparsed => simp [Attempt.isCounted]
  | added status => cases status <;> simp_all [Attempt.isCounted]

theorem Complete.accounted_iff {h : Handling} (hc : Complete h) :
    Accounted h ↔ ∀ attempt ∈ h.attempts, attempt.2 ≠ .added .error := by
  constructor
  · rintro haccounted ⟨k, attempt⟩ hmem rfl
    -- The sample of the failed call left, and no other attempt explains it.
    have hleft : k ∈ h.left := by
      rw [← hc.handed]
      exact mem_handed_iff.mpr ⟨_, hmem, rfl⟩
    obtain ⟨other, hother, hreleases⟩ := haccounted.left k hleft
    have hhanded : other.isHanded = true := by
      cases other with
      | unmapped | unparsed => rfl
      | added status => cases status <;> simp_all [Attempt.releases, Attempt.isHanded]
    obtain rfl := hc.attempt_unique hmem hother rfl hhanded
    cases hreleases
  · intro hok
    have hcounted := counted_eq_length_segments hok
    refine ⟨?_, ?_, fun k hk ↦ ?_⟩
    · rw [hc.posted, hcounted, Handling.due]
      simp only [List.length_eq_zero_iff, ne_eq, ite_not]
    · rw [← hcounted]
      exact Nat.le_trans List.countP_le_length hc.attempts
    · rw [← hc.handed] at hk
      obtain ⟨attempt, hmem, hhanded⟩ := mem_handed_iff.mp hk
      refine ⟨attempt, hmem, ?_⟩
      have hne := hok _ hmem
      cases attempt with
      | unmapped | unparsed => rfl
      | added status => cases status <;> simp_all [Attempt.releases, Attempt.isHanded]

/-! ## Handlings in progress -/

/-- The handling and the local variables of the puller: `pending` was handed over
and is still to be popped, `uncounted` still to be counted; `used` attempts were
made in the present iteration, which has `room` to be completed, and `steps`
steps of the puller belong to it. -/
structure Matches (h : Handling) (p : Pull) (pending : List ℕ)
    (uncounted used room steps : ℕ) : Prop where
  frameCount : p.frameCount = h.frameCount
  handed : h.handed = h.left ++ pending
  counted : h.counted = p.addedSegments + uncounted
  running : p.isEos = false ∧ h.drained = false
  posted : h.posted = []
  attempts : h.attempts.length ≤ p.frame + used
  frame : p.frame + room ≤ p.frameCount
  steps : h.steps ≤ 6 * p.frame + steps

/-- The same behind the loop. -/
structure MatchesDone (h : Handling) (p : Pull) : Prop where
  handed : h.handed = h.left
  counted : h.counted = p.addedSegments
  drained : p.isEos = h.drained
  posted : h.posted = []
  attempts : h.attempts.length ≤ h.frameCount
  steps : h.steps ≤ 6 * h.frameCount + 1

/-- The handling follows the puller. -/
def Follows (h : Handling) : PullerPc → Prop
  | .idle => False
  | .loop p => Matches h p [] 0 0 0 0
  | .front p => Matches h p [] 0 0 1 1
  | .eos p => Matches h p [] 0 0 1 2
  | .map p _ => Matches h p [] 0 0 1 2
  | .parse p _ => Matches h p [] 0 0 1 3
  | .add p _ => Matches h p [] 0 0 1 4
  | .pop p k .given => Matches h p [k] 1 1 1 5
  | .pop p k _ => Matches h p [k] 0 1 1 5
  | .done p => MatchesDone h p

/-- What the handling in progress has popped. -/
def Accounts.left (s : Accounts) : List ℕ :=
  (s.current.map (·.left)).getD []

/-- The handling follows the puller, whose sample is the front of the queue; the
samples have distinct numbers; what is over is complete. -/
structure Kept (s : Accounts) : Prop where
  idle : s.current = none → s.delegate.puller = .idle
  follows : ∀ h, s.current = some h → Follows h s.delegate.puller
  front : ∀ k, s.delegate.puller.sample = some k → s.delegate.samples.head? = some k
  distinct : (s.left ++ s.delegate.samples).Nodup
  numbered : ∀ k ∈ s.left ++ s.delegate.samples, k < s.delegate.arrived
  finished : ∀ h ∈ s.finished, Complete h

theorem handed_append {h : Handling} {attempts : List (ℕ × Attempt)} :
    Handling.handed { h with attempts := h.attempts ++ attempts } =
      h.handed ++ (attempts.filter (·.2.isHanded)).map Prod.fst := by
  simp [Handling.handed]

theorem counted_append {h : Handling} {attempts : List (ℕ × Attempt)} :
    Handling.counted { h with attempts := h.attempts ++ attempts } =
      h.counted + attempts.countP (·.2.isCounted) := by
  simp [Handling.counted]

/-- A step of the puller that decides nothing. -/
theorem Matches.advance {h : Handling} {p : Pull} {pending : List ℕ}
    {uncounted used room steps : ℕ} (hm : Matches h p pending uncounted used room steps)
    (covered : Bool) :
    Matches { h with steps := h.steps + 1, covered := covered } p pending uncounted used room
      (steps + 1) := by
  refine ⟨hm.frameCount, hm.handed, hm.counted, hm.running, hm.posted, hm.attempts, hm.frame, ?_⟩
  have hsteps := hm.steps
  change h.steps + 1 ≤ _
  omega

/-- The fate of the sample of the iteration is decided, and it is to be popped. -/
theorem Matches.decide {h : Handling} {p : Pull} {k steps : ℕ} {attempt : Attempt}
    (hm : Matches h p [] 0 0 1 steps) (hhanded : attempt.isHanded = true) (hsteps : steps ≤ 4)
    (covered : Bool) :
    Matches { h with
        attempts := h.attempts ++ [(k, attempt)], steps := h.steps + 1, covered := covered }
      p [k] (if attempt.isCounted then 1 else 0) 1 1 5 := by
  refine ⟨hm.frameCount, ?_, ?_, hm.running, hm.posted, ?_, hm.frame, ?_⟩
  · apply (handed_append (h := h)).trans
    rw [hm.handed]
    simp [hhanded]
  · apply (counted_append (h := h)).trans
    rw [hm.counted]
    simp [List.countP_cons]
  · have hattempts := hm.attempts
    simp only [List.length_append, List.length_singleton]
    omega
  · have hsteps' := hm.steps
    change h.steps + 1 ≤ _
    omega

/-- The sample that was handed over or given up is popped. -/
theorem Matches.popped {h : Handling} {p : Pull} {k uncounted : ℕ}
    (hm : Matches h p [k] uncounted 1 1 5) (covered : Bool) {q : Pull}
    (hq : q = { p with frame := p.frame + 1, addedSegments := p.addedSegments + uncounted }) :
    Matches { h with left := h.left ++ [k], steps := h.steps + 1, covered := covered }
      q [] 0 0 0 0 := by
  have hcounted := hm.counted
  have hattempts := hm.attempts
  have hframe := hm.frame
  have hsteps := hm.steps
  subst hq
  refine ⟨hm.frameCount, ?_, ?_, hm.running, hm.posted, ?_, ?_, ?_⟩
  · rw [List.append_nil]
    exact hm.handed
  · exact hcounted
  · exact hattempts
  · exact hframe
  · change h.steps + 1 ≤ 6 * (p.frame + 1) + 0
    omega

/-- The loop is left. -/
theorem Matches.done {h : Handling} {p : Pull} {room steps : ℕ}
    (hm : Matches h p [] 0 0 room steps) (hsteps : steps ≤ 6 * room) (covered : Bool) :
    MatchesDone { h with steps := h.steps + 1, covered := covered } p := by
  have hcount := hm.frameCount
  have hattempts := hm.attempts
  have hframe := hm.frame
  have hsteps' := hm.steps
  refine ⟨?_, hm.counted, hm.running.1.trans hm.running.2.symm, hm.posted, ?_, ?_⟩
  · rw [← List.append_nil h.left]
    exact hm.handed
  · change h.attempts.length ≤ h.frameCount
    omega
  · change h.steps + 1 ≤ 6 * h.frameCount + 1
    omega

/-- The loop is left for lack of space. -/
theorem Matches.noSpace {h : Handling} {p : Pull} {k : ℕ} (hm : Matches h p [] 0 0 1 4)
    (covered : Bool) :
    MatchesDone { h with
        attempts := h.attempts ++ [(k, .added .noSpace)]
        steps := h.steps + 1, covered := covered } p := by
  have hcount := hm.frameCount
  have hattempts := hm.attempts
  have hframe := hm.frame
  have hsteps := hm.steps
  refine ⟨?_, ?_, hm.running.1.trans hm.running.2.symm, hm.posted, ?_, ?_⟩
  · apply (handed_append (h := h)).trans
    rw [hm.handed]
    simp [Attempt.isHanded]
  · apply (counted_append (h := h)).trans
    rw [hm.counted]
    simp [Attempt.isCounted]
  · simp only [List.length_append, List.length_singleton]
    omega
  · change h.steps + 1 ≤ 6 * h.frameCount + 1
    omega

/-- The loop is left over an empty queue, at the end of the stream or not. -/
theorem Matches.asked {h : Handling} {p : Pull} (hm : Matches h p [] 0 0 1 2)
    (drained covered : Bool) :
    MatchesDone { h with
        drained := h.drained || drained, steps := h.steps + 1, covered := covered }
      { p with isEos := drained } := by
  have hdone := hm.done (by omega) covered
  refine ⟨hdone.handed, hdone.counted, ?_, hdone.posted, hdone.attempts, hdone.steps⟩
  change drained = (h.drained || drained)
  rw [hm.running.2, Bool.false_or]

/-! ## One step -/

theorem Kept.busy {s : Accounts} (hk : Kept s) (hpc : s.delegate.puller ≠ .idle) :
    ∃ h, s.current = some h ∧ Follows h s.delegate.puller := by
  cases hcurrent : s.current with
  | none => exact absurd (hk.idle hcurrent) hpc
  | some h => exact ⟨h, rfl, hk.follows h hcurrent⟩

/-- The handling goes on; what it popped is what left the queue. -/
theorem kept_current {s : Accounts} {t : State} {h h' : Handling} (hk : Kept s)
    (hcurrent : s.current = some h) (hfollows : Follows h' t.puller)
    (hfront : ∀ k, t.puller.sample = some k → t.samples.head? = some k)
    (hsamples : h'.left ++ t.samples = h.left ++ s.delegate.samples)
    (harrived : t.arrived = s.delegate.arrived) :
    Kept { s with delegate := t, current := some h' } := by
  have hleft : s.left = h.left := by
    rw [Accounts.left, hcurrent]
    rfl
  have hdistinct := hk.distinct
  have hnumbered := hk.numbered
  rw [hleft, ← hsamples] at hdistinct hnumbered
  refine ⟨by rintro ⟨⟩, ?_, hfront, hdistinct, ?_, hk.finished⟩
  · rintro _ ⟨⟩
    exact hfollows
  · change ∀ k ∈ h'.left ++ t.samples, k < t.arrived
    rw [harrived]
    exact hnumbered

theorem follows_covered {h : Handling} {pc : PullerPc} (hf : Follows h pc) (covered : Bool) :
    Follows { h with covered := covered } pc := by
  have hmatches : ∀ {p : Pull} {pending : List ℕ} {uncounted used room steps : ℕ},
      Matches h p pending uncounted used room steps →
        Matches { h with covered := covered } p pending uncounted used room steps := by
    intro p pending uncounted used room steps hm
    exact ⟨hm.frameCount, hm.handed, hm.counted, hm.running, hm.posted, hm.attempts, hm.frame,
      hm.steps⟩
  cases pc with
  | idle => exact hf
  | done p => exact ⟨hf.handed, hf.counted, hf.drained, hf.posted, hf.attempts, hf.steps⟩
  | pop p k outcome => cases outcome <;> exact hmatches hf
  | loop | front | eos | map | parse | add => exact hmatches hf

/-- A step of another thread; the queue is not cleared under a handling. -/
theorem kept_other {s : Accounts} {t : State} {e : Event} (hk : Kept s)
    (hclear : e.clears = true → s.current = none) (he : e.isPulling = false)
    (hpuller : t.puller = s.delegate.puller) (hsupply : Supply s.delegate e t) :
    Kept (s.enter e t) := by
  rw [enter_of_other t he]
  have hleft : Accounts.left { s with
      delegate := t
      current := s.current.map fun h ↦
        { h with covered := h.covered && t.isServerFlushOngoing } } = s.left := by
    unfold Accounts.left
    cases s.current <;> rfl
  refine ⟨?_, ?_, ?_, ?_, ?_, hk.finished⟩
  · intro hnone
    exact hpuller.trans (hk.idle (Option.map_eq_none_iff.mp hnone))
  · intro h hcurrent
    obtain ⟨h', hcurrent', rfl⟩ := Option.map_eq_some_iff.mp hcurrent
    change Follows _ t.puller
    rw [hpuller]
    exact follows_covered (hk.follows h' hcurrent') _
  · intro k hsample
    change t.puller.sample = some k at hsample
    rw [hpuller] at hsample
    have hfront := hk.front k hsample
    cases hsupply with
    | same hsamples =>
        change t.samples.head? = some k
        rw [hsamples, hfront]
    | queue hsamples =>
        change t.samples.head? = some k
        rw [hsamples, List.head?_append, hfront, Option.some_or]
    | clear hclears =>
        -- Only an idle puller is cleared under.
        rw [hk.idle (hclear hclears)] at hsample
        cases hsample
  · rw [hleft]
    change (s.left ++ t.samples).Nodup
    cases hsupply with
    | same hsamples =>
        rw [hsamples]
        exact hk.distinct
    | queue hsamples =>
        rw [hsamples, ← List.append_assoc]
        apply hk.distinct.append (List.nodup_singleton _)
        intro k hk' hlast
        have hless := hk.numbered k hk'
        rw [List.mem_singleton.mp hlast] at hless
        exact absurd hless (Nat.lt_irrefl _)
    | clear _ hsamples =>
        rw [hsamples, List.append_nil]
        exact hk.distinct.of_append_left
  · rw [hleft]
    change ∀ k ∈ s.left ++ t.samples, k < t.arrived
    cases hsupply with
    | same hsamples harrived =>
        rw [hsamples, harrived]
        exact hk.numbered
    | queue hsamples harrived =>
        rw [hsamples, harrived, ← List.append_assoc]
        intro k hmem
        rcases List.mem_append.mp hmem with hold | hlast
        · exact Nat.lt_succ_of_lt (hk.numbered k hold)
        · rw [List.mem_singleton.mp hlast]
          exact Nat.lt_succ_self _
    | clear _ hsamples harrived =>
        rw [hsamples, harrived, List.append_nil]
        exact fun k hmem ↦ hk.numbered k (List.mem_append_left _ hmem)

/-- A step of the loop that leaves the queue as it is and decides nothing. -/
theorem kept_quiet {s : Accounts} {t : State} {e : Event} {pc : PullerPc} (hk : Kept s)
    (he : e.asks = true) (hpc : s.delegate.puller = pc) (hbusy : pc ≠ .idle)
    (hattempt : pc.attempt e = none)
    (hfollows : ∀ h covered, Follows h pc →
      Follows { h with steps := h.steps + 1, covered := covered } t.puller)
    (hfront : ∀ k, t.puller.sample = some k → t.samples.head? = some k)
    (hsamples : t.samples = s.delegate.samples) (harrived : t.arrived = s.delegate.arrived) :
    Kept (s.enter e t) := by
  subst hpc
  obtain ⟨h, hcurrent, hf⟩ := hk.busy hbusy
  rw [enter_of_asks t he hcurrent, hattempt, Option.toList_none, List.append_nil]
  apply kept_current hk hcurrent (hfollows _ _ hf) hfront _ harrived
  rw [hsamples]

/-- A step of the loop that decides the fate of the front sample. -/
theorem kept_attempt {s : Accounts} {t : State} {e : Event} {pc : PullerPc} {k : ℕ}
    {attempt : Attempt} (hk : Kept s) (he : e.asks = true) (hpc : s.delegate.puller = pc)
    (hbusy : pc ≠ .idle) (hattempt : pc.attempt e = some (k, attempt))
    (hfollows : ∀ h covered, Follows h pc → Follows { h with
      attempts := h.attempts ++ [(k, attempt)]
      steps := h.steps + 1, covered := covered } t.puller)
    (hfront : ∀ k, t.puller.sample = some k → t.samples.head? = some k)
    (hsamples : t.samples = s.delegate.samples) (harrived : t.arrived = s.delegate.arrived) :
    Kept (s.enter e t) := by
  subst hpc
  obtain ⟨h, hcurrent, hf⟩ := hk.busy hbusy
  rw [enter_of_asks t he hcurrent, hattempt, Option.toList_some]
  apply kept_current hk hcurrent (hfollows _ _ hf) hfront _ harrived
  rw [hsamples]

theorem kept_begin {s : Accounts} (hk : Kept s) (frameCount : ℕ)
    (hpc : s.delegate.puller = .idle) :
    Kept (s.enter (.pullBuffer frameCount)
      { s.delegate with puller := .loop { frameCount } }) := by
  have hcurrent : s.current = none := by
    cases hcurrent : s.current with
    | none => rfl
    | some h =>
        have hfollows := hk.follows h hcurrent
        rw [hpc] at hfollows
        exact hfollows.elim
  have hleft : s.left = [] := by
    rw [Accounts.left, hcurrent]
    rfl
  have hdistinct := hk.distinct
  have hnumbered := hk.numbered
  rw [hleft] at hdistinct hnumbered
  refine ⟨by rintro ⟨⟩, ?_, by rintro k ⟨⟩, hdistinct, hnumbered, hk.finished⟩
  rintro _ ⟨⟩
  exact ⟨rfl, rfl, rfl, ⟨rfl, rfl⟩, rfl, Nat.zero_le _, Nat.zero_le _, Nat.zero_le _⟩

theorem kept_pop {s : Accounts} {h : Handling} {p : Pull} {k : ℕ} {outcome : Outcome}
    (hk : Kept s) (hcurrent : s.current = some h) (hpc : s.delegate.puller = .pop p k outcome) :
    Kept (s.enter .popSample
      { s.delegate.popSample k outcome with puller := .loop (p.afterPop outcome) }) := by
  have hfront := hk.front k (by rw [hpc]; rfl)
  obtain ⟨rest, hrest⟩ : ∃ rest, s.delegate.samples = k :: rest := by
    cases hsamples : s.delegate.samples with
    | nil =>
        rw [hsamples] at hfront
        cases hfront
    | cons first rest =>
        rw [hsamples] at hfront
        cases hfront
        exact ⟨rest, rfl⟩
  have hfollows := hk.follows h hcurrent
  rw [hpc] at hfollows
  have hrecord : ∀ t : State, h.record s.delegate .popSample t = { h with
      left := h.left ++ [k], steps := h.steps + 1
      covered := h.covered && t.isServerFlushOngoing } := by
    intro t
    simp [Handling.record, PullerPc.attempt, PullerPc.posts, State.leaves, State.drains,
      Event.isPulling, hfront, hpc]
  rw [enter_of_pulling _ hcurrent (by rintro _ ⟨⟩) (by rintro ⟨⟩), hrecord]
  apply kept_current hk hcurrent
  · cases outcome with
    | given => exact hfollows.popped _ rfl
    | unmapped | unparsed => exact hfollows.popped _ rfl
  · rintro _ ⟨⟩
  · simp [State.popSample, hrest]
  · simp [State.popSample, hrest]

theorem kept_post {s : Accounts} {h : Handling} {p : Pull} (hk : Kept s)
    (hcurrent : s.current = some h) (hpc : s.delegate.puller = .done p) :
    Kept (s.enter .postHaveData
      { s.delegate with puller := .idle, answers := s.delegate.answers ++ [p.status] }) := by
  have hleft : s.left = h.left := by
    rw [Accounts.left, hcurrent]
    rfl
  have hdistinct := hk.distinct
  have hnumbered := hk.numbered
  have hdone := hk.follows h hcurrent
  rw [hpc] at hdone
  rw [enter_of_post _ hcurrent]
  rw [hleft] at hdistinct hnumbered
  refine ⟨fun _ ↦ rfl, by rintro _ ⟨⟩, by rintro k ⟨⟩, hdistinct.of_append_right, ?_, ?_⟩
  · exact fun k hmem ↦ hnumbered k (List.mem_append_right _ hmem)
  · intro h' hmem
    rcases List.mem_append.mp hmem with hold | hlast
    · exact hk.finished h' hold
    · rw [List.mem_singleton.mp hlast, record_of_post hdone.posted hpc]
      refine ⟨hdone.handed, hdistinct.of_append_left, ?_, hdone.attempts⟩
      change [p.status] = [if h.drained then _ else if h.counted = 0 then _ else _]
      rw [hdone.counted, ← hdone.drained]
      rfl

theorem kept_isEos {s : Accounts} {h : Handling} {p : Pull} (hk : Kept s)
    (hcurrent : s.current = some h) (hpc : s.delegate.puller = .eos p) :
    Kept (s.enter .isEos
      { s.delegate with puller := .done { p with isEos := s.delegate.isEosReached } }) := by
  have hfollows := hk.follows h hcurrent
  rw [hpc] at hfollows
  rw [enter_of_pulling _ hcurrent (by rintro _ ⟨⟩) (by rintro ⟨⟩), record_of_isEos hpc]
  apply kept_current hk hcurrent
  · exact hfollows.asked _ _
  · rintro _ ⟨⟩
  · rfl
  · rfl

/-- A step of an undisturbed handling. -/
theorem kept_of_pull {s : Accounts} {t : State} {e : Event} (hk : Kept s)
    (hmove : PullMove s.delegate e t) : Kept (s.enter e t) := by
  have hbusy : ∀ {pc : PullerPc}, s.delegate.puller = pc → pc ≠ .idle →
      ∃ h, s.current = some h := by
    rintro _ rfl hidle
    obtain ⟨h, hcurrent, -⟩ := hk.busy hidle
    exact ⟨h, hcurrent⟩
  have hsample : ∀ {pc : PullerPc} {k : ℕ}, s.delegate.puller = pc → pc.sample = some k →
      s.delegate.samples.head? = some k := by
    rintro pc k rfl hsample
    exact hk.front k hsample
  cases hmove with
  | begin frameCount hpc => exact kept_begin hk frameCount hpc
  | ready p hpc hframe =>
      apply kept_quiet hk rfl hpc (by simp) rfl
      · intro h covered hf
        -- The test of the loop makes the room for the iteration.
        have hadvance := Matches.advance hf covered
        exact ⟨hadvance.frameCount, hadvance.handed, hadvance.counted, hadvance.running,
          hadvance.posted, hadvance.attempts, hframe, hadvance.steps⟩
      · rintro _ ⟨⟩
      · rfl
      · rfl
  | leave p hpc =>
      apply kept_quiet hk rfl hpc (by simp) rfl
      · exact fun h covered hf ↦ Matches.done hf (Nat.le_refl _) covered
      · rintro _ ⟨⟩
      · rfl
      · rfl
  | obtain p k hpc hserver hhead =>
      apply kept_quiet hk rfl hpc (by simp) rfl
      · exact fun h covered hf ↦ Matches.advance hf covered
      · rintro _ ⟨⟩
        exact hhead
      · rfl
      · rfl
  | nothing p hpc =>
      apply kept_quiet hk rfl hpc (by simp) rfl
      · exact fun h covered hf ↦ Matches.advance hf covered
      · rintro _ ⟨⟩
      · rfl
      · rfl
  | isEos p hpc =>
      obtain ⟨h, hcurrent⟩ := hbusy hpc (by simp)
      exact kept_isEos hk hcurrent hpc
  | map p k hpc | parse p k hpc =>
      apply kept_quiet hk rfl hpc (by simp) rfl
      · exact fun h covered hf ↦ Matches.advance hf covered
      · rintro _ ⟨⟩
        exact hsample hpc rfl
      · rfl
      · rfl
  | unmapped p k hpc | unparsed p k hpc =>
      apply kept_attempt hk rfl hpc (by simp) rfl
      · exact fun h covered hf ↦ Matches.decide hf rfl (by omega) covered
      · rintro _ ⟨⟩
        exact hsample hpc rfl
      · rfl
      · rfl
  | noSpace p k hpc =>
      apply kept_attempt hk rfl hpc (by simp) rfl
      · exact fun h covered hf ↦ Matches.noSpace hf covered
      · rintro _ ⟨⟩
      · rfl
      · rfl
  | give p k status hstatus hpc =>
      apply kept_attempt hk rfl hpc (by simp) rfl
      · intro h covered hf
        cases status with
        | noSpace => exact absurd rfl hstatus
        | ok | error => exact Matches.decide hf rfl (Nat.le_refl _) covered
      · rintro _ ⟨⟩
        exact hsample hpc rfl
      · rfl
      · rfl
  | pop p k outcome hpc =>
      obtain ⟨h, hcurrent⟩ := hbusy hpc (by simp)
      exact kept_pop hk hcurrent hpc
  | post p hpc =>
      obtain ⟨h, hcurrent⟩ := hbusy hpc (by simp)
      exact kept_post hk hcurrent hpc

/-! ## Whole runs -/

/-- The environment that does not empty the queue under a handling. -/
def undisturbed : Machine Accounts Event :=
  accounts.restrict fun s e ↦ e.clears = true → s.current = none

theorem kept_start : Kept {} := by
  refine ⟨fun _ ↦ rfl, by rintro _ ⟨⟩, by rintro _ ⟨⟩, List.nodup_nil, ?_, ?_⟩
  · exact fun k hmem ↦ (List.not_mem_nil hmem).elim
  · exact fun h hmem ↦ (List.not_mem_nil hmem).elim

theorem kept_step {s t : Accounts} {e : Event} (hk : Kept s)
    (hstep : undisturbed.step s e = some t) : Kept t := by
  obtain ⟨hclear, hstep⟩ := accounts.restrict_step_eq_some_iff.mp hstep
  obtain ⟨delegate, hdelegate, rfl⟩ := Option.map_eq_some_iff.mp hstep
  cases turn_of_step hdelegate with
  | other he hpuller hsupply => exact kept_other hk hclear he hpuller hsupply
  | pull hmove => exact kept_of_pull hk hmove

/-- A puller that is not idle has a step to take. -/
theorem pull_enabled (s : State) {pc : PullerPc} (hbusy : pc ≠ .idle) :
    ∃ e, e.isPulling = true ∧ (s.pull pc e).isSome = true := by
  cases pc with
  | idle => exact absurd rfl hbusy
  | loop p =>
      refine ⟨.isReadyToSendData, rfl, ?_⟩
      simp only [State.pull]
      split <;> rfl
  | front p =>
      refine ⟨.getFrontSample, rfl, ?_⟩
      simp only [State.pull]
      split <;> rfl
  | eos p => exact ⟨.isEos, rfl, rfl⟩
  | map p k => exact ⟨.map true, rfl, rfl⟩
  | parse p k => exact ⟨.parseBuffer true, rfl, rfl⟩
  | add p k => exact ⟨.addSegment .ok, rfl, rfl⟩
  | pop p k outcome => exact ⟨.popSample, rfl, rfl⟩
  | done p => exact ⟨.postHaveData, rfl, rfl⟩

theorem enabled_of_busy {s : Accounts} (hbusy : s.delegate.puller ≠ .idle) :
    ∃ e, e.isPulling = true ∧ (s.step e).isSome = true := by
  obtain ⟨e, he, henabled⟩ := pull_enabled s.delegate hbusy
  refine ⟨e, he, ?_⟩
  have hstep : s.delegate.step e = s.delegate.pull s.delegate.puller e := by
    cases e <;> first | rfl | cases he
  rw [Accounts.step, Option.isSome_map, hstep]
  exact henabled

theorem Matches.steps_le {h : Handling} {p : Pull} {pending : List ℕ}
    {uncounted used room steps : ℕ} (hm : Matches h p pending uncounted used room steps)
    (hsteps : steps ≤ 6 * room) : h.steps ≤ 6 * h.frameCount + 1 := by
  have hcount := hm.frameCount
  have hframe := hm.frame
  have hsteps' := hm.steps
  omega

theorem Follows.steps_le {h : Handling} {pc : PullerPc} (hf : Follows h pc) :
    h.steps ≤ 6 * h.frameCount + 1 := by
  cases pc with
  | idle => exact hf.elim
  | done p => exact hf.steps
  | pop p k outcome => cases outcome <;> exact Matches.steps_le hf (by omega)
  | loop | front | eos | map | parse | add => exact Matches.steps_le hf (by omega)

theorem Kept.proceeds {s : Accounts} {h : Handling} (hk : Kept s)
    (hcurrent : s.current = some h) : Proceeds s h := by
  have hfollows := hk.follows h hcurrent
  refine ⟨hfollows.steps_le, enabled_of_busy ?_⟩
  intro hidle
  rw [hidle] at hfollows
  exact hfollows

/-- Three samples, of which the first cannot be mapped and the last finds no
space; the third arrives between the two halves of an iteration. -/
def mixedHandling : List Event :=
  [.setSegment, .handleBuffer true, .handleBuffer true, .pullBuffer 4,
    .isReadyToSendData, .getFrontSample, .map false, .popSample,
    .isReadyToSendData, .getFrontSample, .map true, .handleBuffer true, .parseBuffer true,
    .addSegment .ok, .popSample,
    .isReadyToSendData, .getFrontSample, .map true, .parseBuffer true, .addSegment .noSpace,
    .postHaveData]

def mixedRecord : Handling where
  frameCount := 4
  attempts := [(0, .unmapped), (1, .added .ok), (2, .added .noSpace)]
  left := [0, 1]
  posted := [.ok]
  notified := 1
  steps := 16
  covered := false

/-- A sample on which `addSegment` fails. -/
def failingHandling : List Event :=
  [.setSegment, .handleBuffer true, .pullBuffer 1, .isReadyToSendData, .getFrontSample,
    .map true, .parseBuffer true, .addSegment .error, .popSample, .isReadyToSendData,
    .postHaveData]

def failedRecord : Handling where
  frameCount := 1
  attempts := [(0, .added .error)]
  left := [0]
  posted := [.ok]
  notified := 1
  steps := 8
  covered := false

end RialtoGStreamer.PullMode
