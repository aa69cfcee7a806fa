import RialtoGStreamer.Library.Machine
import RialtoGStreamer.Sink.Model

/-!
# Setting properties while the delegate is installed

`handle_set_property` reads the delegate in one section of the mutex and queues
the value in another. Any number of threads call it while other threads run
`initialise_delegate`; the calls are numbered, and a value carries the number of
its call.
-/

namespace RialtoGStreamer.Sink

open Library

variable {π ρ : Type*} {ν : π → Type*}

/-- Where a call is: before it reads the delegate, before it calls the one it has
read, before it queues the value, or at its end. -/
inductive Stage (ρ : Type*) where
  | reading
  | calling (delegate : ρ)
  | enqueueing
  | returned

/-- A call of `handle_set_property`. -/
structure Caller (ρ : Type*) (ν : π → Type*) where
  property : π
  value : ν property
  stage : Stage ρ

/-- `delivered` are the calls of the delegates' `setProperty`, `order` the calls in
the order in which they called a delegate or queued their value. -/
structure HandOver (ρ : Type*) (ν : π → Type*) where
  sink : State ρ (fun p ↦ ℕ × ν p) := {}
  callers : List (Caller ρ ν) := []
  delivered : List (Call ρ fun p ↦ ℕ × ν p) := []
  order : List (ℕ × π) := []

inductive HandOverEvent (ρ : Type*) (ν : π → Type*) where
  | setProperty (property : π) (value : ν property)
  | getDelegate (i : ℕ)
  | callDelegate (i : ℕ)
  | enqueue (i : ℕ)
  | initialiseDelegate (delegate : ρ)

namespace HandOver

def moveTo (s : HandOver ρ ν) (i : ℕ) (c : Caller ρ ν) (stage : Stage ρ) : HandOver ρ ν :=
  { s with callers := s.callers.set i { c with stage } }

def getDelegate (s : HandOver ρ ν) (i : ℕ) (c : Caller ρ ν) : HandOver ρ ν :=
  match s.sink.delegate with
  | some delegate => s.moveTo i c (.calling delegate)
  | none => s.moveTo i c .enqueueing

def callDelegate (s : HandOver ρ ν) (i : ℕ) (c : Caller ρ ν) (delegate : ρ) : HandOver ρ ν :=
  { s.moveTo i c .returned with
    delivered := s.delivered ++ [⟨delegate, c.property, i, c.value⟩]
    order := s.order ++ [(i, c.property)] }

def initialiseDelegate (s : HandOver ρ ν) (delegate : ρ) : HandOver ρ ν :=
  let (sink, calls) := s.sink.initialiseDelegate delegate
  { s with sink, delivered := s.delivered ++ calls }

variable [DecidableEq π]

def enqueue (s : HandOver ρ ν) (i : ℕ) (c : Caller ρ ν) : HandOver ρ ν :=
  { s.moveTo i c .returned with
    sink := s.sink.enqueue c.property (i, c.value)
    order := s.order ++ [(i, c.property)] }

def step (s : HandOver ρ ν) : HandOverEvent ρ ν → Option (HandOver ρ ν)
  | .setProperty property value =>
      some { s with callers := s.callers ++ [⟨property, value, .reading⟩] }
  | .getDelegate i =>
      s.callers[i]?.bind fun c ↦
        match c.stage with
        | .reading => some (s.getDelegate i c)
        | _ => none
  | .callDelegate i =>
      s.callers[i]?.bind fun c ↦
        match c.stage with
        | .calling delegate => some (s.callDelegate i c delegate)
        | _ => none
  | .enqueue i =>
      s.callers[i]?.bind fun c ↦
        match c.stage with
        | .enqueueing => some (s.enqueue i c)
        | _ => none
  | .initialiseDelegate delegate => some (s.initialiseDelegate delegate)

end HandOver

def handOver (ρ : Type*) (ν : π → Type*) [DecidableEq π] :
    Machine (HandOver ρ ν) (HandOverEvent ρ ν) where
  step := HandOver.step

/-- The value of a call reached a delegate. -/
def Delivered (s : HandOver ρ ν) (i : ℕ) (c : Caller ρ ν) : Prop :=
  ∃ delegate, ⟨delegate, c.property, i, c.value⟩ ∈ s.delivered

/-- Another set of the same property took effect later. -/
def Superseded (s : HandOver ρ ν) (i : ℕ) (c : Caller ρ ν) : Prop :=
  ∃ m n j : ℕ, m < n ∧ s.order[m]? = some (i, c.property) ∧ s.order[n]? = some (j, c.property)

variable [DecidableEq π]

/-- No value stays queued beside a delegate, and once all calls have returned
each value has reached one unless it was superseded. -/
structure HandedOver (s : HandOver ρ ν) : Prop where
  drained : s.sink.delegate ≠ none → s.sink.queuedProperties = ∅
  delivered : s.sink.delegate ≠ none → (∀ c ∈ s.callers, c.stage = .returned) →
    ∀ i c, s.callers[i]? = some c → Delivered s i c ∨ Superseded s i c

/-- A value is queued only while there is no delegate. -/
def QueuesInTime (s : HandOver ρ ν) : HandOverEvent ρ ν → Prop
  | .enqueue _ => s.sink.delegate = none
  | _ => True

/-- The value of a call that has returned is delivered, queued or superseded. -/
structure Tracked (s : HandOver ρ ν) : Prop where
  returned : ∀ i c, s.callers[i]? = some c → c.stage = .returned →
    Delivered s i c ∨ s.sink.queuedProperties.lookup c.property = some (i, c.value) ∨
      Superseded s i c
  ordered : ∀ p i v, s.sink.queuedProperties.lookup p = some (i, v) → (i, p) ∈ s.order

/-! ## What stays known of a call -/

omit [DecidableEq π] in
theorem Delivered.mono {s t : HandOver ρ ν} {i : ℕ} {c : Caller ρ ν} (h : Delivered s i c)
    {calls : List (Call ρ fun p ↦ ℕ × ν p)} (ht : t.delivered = s.delivered ++ calls) :
    Delivered t i c := by
  obtain ⟨delegate, hmem⟩ := h
  exact ⟨delegate, ht ▸ List.mem_append_left calls hmem⟩

omit [DecidableEq π] in
theorem Superseded.mono {s t : HandOver ρ ν} {i : ℕ} {c : Caller ρ ν} (h : Superseded s i c)
    {order : List (ℕ × π)} (ht : t.order = s.order ++ order) : Superseded t i c := by
  have hkeep : ∀ {k : ℕ} {x : ℕ × π}, s.order[k]? = some x → t.order[k]? = some x := by
    intro k x hx
    rw [ht, List.getElem?_append_left (List.getElem?_eq_some_iff.mp hx).1]
    exact hx
  obtain ⟨m, n, j, hlt, hm, hn⟩ := h
  exact ⟨m, n, j, hlt, hkeep hm, hkeep hn⟩

omit [DecidableEq π] in
theorem superseded_of_append {s t : HandOver ρ ν} {i j : ℕ} {c : Caller ρ ν}
    (hi : (i, c.property) ∈ s.order) (ht : t.order = s.order ++ [(j, c.property)]) :
    Superseded t i c := by
  obtain ⟨m, hm⟩ := List.mem_iff_getElem?.mp hi
  have hlt : m < s.order.length := (List.getElem?_eq_some_iff.mp hm).1
  refine ⟨m, s.order.length, j, hlt, ?_, ?_⟩
  · rw [ht, List.getElem?_append_left hlt]
    exact hm
  · rw [ht]
    exact List.getElem?_concat_length

omit [DecidableEq π] in
theorem callers_moveTo {s : HandOver ρ ν} {i j : ℕ} {c d : Caller ρ ν} {stage : Stage ρ}
    (h : (s.moveTo i c stage).callers[j]? = some d) :
    (j = i ∧ d = { c with stage }) ∨ s.callers[j]? = some d := by
  unfold HandOver.moveTo at h
  rw [List.getElem?_set] at h
  split at h
  · next hij =>
      split at h
      · cases h
        exact .inl ⟨hij.symm, rfl⟩
      · cases h
  · exact .inr h

/-! ## One step -/

theorem Tracked.moveTo {s : HandOver ρ ν} (h : Tracked s) (i : ℕ) (c : Caller ρ ν)
    {stage : Stage ρ} (hstage : stage ≠ .returned) : Tracked (s.moveTo i c stage) := by
  refine ⟨fun j d hd hreturned ↦ ?_, h.ordered⟩
  rcases callers_moveTo hd with ⟨-, rfl⟩ | hd
  · exact absurd hreturned hstage
  · exact h.returned j d hd hreturned

theorem Tracked.callDelegate {s : HandOver ρ ν} (h : Tracked s) (i : ℕ) (c : Caller ρ ν)
    (delegate : ρ) : Tracked (s.callDelegate i c delegate) := by
  refine ⟨fun j d hd hreturned ↦ ?_, fun p j v hlookup ↦ ?_⟩
  · rcases callers_moveTo hd with ⟨rfl, rfl⟩ | hd
    · exact .inl ⟨delegate, List.mem_append_right _ (List.mem_singleton_self _)⟩
    · rcases h.returned j d hd hreturned with hdelivered | hqueued | hsuperseded
      · exact .inl (hdelivered.mono rfl)
      · exact .inr (.inl hqueued)
      · exact .inr (.inr (hsuperseded.mono rfl))
  · exact List.mem_append_left _ (h.ordered p j v hlookup)

theorem Tracked.enqueue {s : HandOver ρ ν} (h : Tracked s) (i : ℕ) (c : Caller ρ ν) :
    Tracked (s.enqueue i c) := by
  have hlookup : ∀ p, (s.enqueue i c).sink.queuedProperties.lookup p =
      (s.sink.queuedProperties.insert c.property (i, c.value)).lookup p := fun _ ↦ rfl
  refine ⟨fun j d hd hreturned ↦ ?_, fun p j v hqueued ↦ ?_⟩
  · rcases callers_moveTo hd with ⟨rfl, rfl⟩ | hd
    · refine .inr (.inl ?_)
      rw [hlookup]
      exact AList.lookup_insert _
    · rcases h.returned j d hd hreturned with hdelivered | hqueued | hsuperseded
      · exact .inl (hdelivered.mono (List.append_nil _).symm)
      · by_cases hsame : d.property = c.property
        · refine .inr (.inr (superseded_of_append (j := i) (h.ordered _ _ _ hqueued) ?_))
          rw [hsame]
          rfl
        · refine .inr (.inl ?_)
          rw [hlookup, AList.lookup_insert_ne hsame]
          exact hqueued
      · exact .inr (.inr (hsuperseded.mono rfl))
  · rw [hlookup] at hqueued
    by_cases hsame : p = c.property
    · subst hsame
      rw [AList.lookup_insert, Option.some_inj, Prod.mk.injEq] at hqueued
      rw [← hqueued.1]
      exact List.mem_append_right _ (List.mem_singleton_self _)
    · rw [AList.lookup_insert_ne hsame] at hqueued
      exact List.mem_append_left _ (h.ordered p j v hqueued)

theorem Tracked.initialiseDelegate {s : HandOver ρ ν} (h : Tracked s) (delegate : ρ) :
    Tracked (s.initialiseDelegate delegate) := by
  refine ⟨fun j d hd hreturned ↦ ?_, fun p j v hqueued ↦ ?_⟩
  · rcases h.returned j d hd hreturned with hdelivered | hqueued | hsuperseded
    · exact .inl (hdelivered.mono rfl)
    · refine .inl ⟨delegate, List.mem_append_right _ (List.mem_map.mpr ?_)⟩
      exact ⟨⟨d.property, j, d.value⟩, AList.mem_lookup_iff.mp hqueued, rfl⟩
    · exact .inr (.inr (hsuperseded.mono (List.append_nil _).symm))
  · cases hqueued

theorem tracked_of_step {s t : HandOver ρ ν} {e : HandOverEvent ρ ν} (h : Tracked s)
    (hstep : s.step e = some t) : Tracked t := by
  cases e with
  | setProperty property value =>
      cases hstep
      refine ⟨fun j d hd hreturned ↦ ?_, h.ordered⟩
      rw [List.getElem?_append] at hd
      split at hd
      · exact h.returned j d hd hreturned
      · obtain rfl := List.mem_singleton.mp (List.mem_of_getElem? hd)
        cases hreturned
  | getDelegate i =>
      obtain ⟨c, hc, hstep⟩ := Option.bind_eq_some_iff.mp hstep
      split at hstep <;> cases hstep
      unfold HandOver.getDelegate
      split
      · exact h.moveTo i c (by simp)
      · exact h.moveTo i c (by simp)
  | callDelegate i =>
      obtain ⟨c, hc, hstep⟩ := Option.bind_eq_some_iff.mp hstep
      split at hstep <;> cases hstep
      exact h.callDelegate i c _
  | enqueue i =>
      obtain ⟨c, hc, hstep⟩ := Option.bind_eq_some_iff.mp hstep
      split at hstep <;> cases hstep
      exact h.enqueue i c
  | initialiseDelegate delegate =>
      cases hstep
      exact h.initialiseDelegate delegate

/-- Among the tracked calls only the queue has to be looked at. -/
theorem handedOver_iff {s : HandOver ρ ν} (h : Tracked s) :
    HandedOver s ↔ (s.sink.delegate ≠ none → s.sink.queuedProperties = ∅) := by
  refine ⟨fun hs ↦ hs.drained, fun hdrained ↦ ⟨hdrained, fun hdelegate hquiet i c hc ↦ ?_⟩⟩
  rcases h.returned i c hc (hquiet c (List.mem_of_getElem? hc)) with hdelivered | hqueued | hlater
  · exact .inl hdelivered
  · rw [hdrained hdelegate] at hqueued
    cases hqueued
  · exact .inr hlater

theorem drained_iff_of_step {s t : HandOver ρ ν} {e : HandOverEvent ρ ν}
    (h : s.sink.delegate ≠ none → s.sink.queuedProperties = ∅) (hstep : s.step e = some t) :
    (t.sink.delegate ≠ none → t.sink.queuedProperties = ∅) ↔ QueuesInTime s e := by
  cases e with
  | setProperty property value =>
      cases hstep
      exact iff_of_true h trivial
  | getDelegate i =>
      obtain ⟨c, hc, hstep⟩ := Option.bind_eq_some_iff.mp hstep
      split at hstep <;> cases hstep
      have hsink : (s.getDelegate i c).sink = s.sink := by
        unfold HandOver.getDelegate
        split <;> rfl
      rw [hsink]
      exact iff_of_true h trivial
  | callDelegate i =>
      obtain ⟨c, hc, hstep⟩ := Option.bind_eq_some_iff.mp hstep
      split at hstep <;> cases hstep
      exact iff_of_true h trivial
  | enqueue i =>
      obtain ⟨c, hc, hstep⟩ := Option.bind_eq_some_iff.mp hstep
      split at hstep <;> cases hstep
      constructor
      · intro hdrained
        by_contra hdelegate
        have hqueued : (s.enqueue i c).sink.queuedProperties.lookup c.property =
            some (i, c.value) := AList.lookup_insert _
        rw [hdrained hdelegate] at hqueued
        cases hqueued
      · exact fun hnone hdelegate ↦ absurd hnone hdelegate
  | initialiseDelegate delegate =>
      cases hstep
      exact iff_of_true (fun _ ↦ rfl) trivial

/-! ## Runs -/

theorem tracked_start : Tracked ({} : HandOver ρ ν) :=
  ⟨by simp, fun p i v h ↦ by cases h⟩

/-- The hand-over loses nothing throughout a run exactly if no value is queued
once a delegate is installed. -/
theorem always_handedOver_iff {es : List (HandOverEvent ρ ν)} {t : HandOver ρ ν}
    (hrun : (handOver ρ ν).run {} es = some t) :
    (handOver ρ ν).Always HandedOver {} es ↔ (handOver ρ ν).Meets QueuesInTime {} es := by
  refine (handOver ρ ν).always_iff_meets (J := Tracked)
    (fun s e u htracked _ _ hstep ↦ tracked_of_step htracked hstep)
    (fun s e u htracked h hstep ↦ ?_) tracked_start ?_ hrun
  · rw [handedOver_iff (tracked_of_step htracked hstep)]
    exact drained_iff_of_step h.drained hstep
  · exact (handedOver_iff tracked_start).mpr fun hnone ↦ absurd rfl hnone

/-- The delegate is installed after a call has found none and before it queues
its value. -/
def installedBetween : List (HandOverEvent Unit fun _ : Unit ↦ ℕ) :=
  [.setProperty () 1, .getDelegate 0, .initialiseDelegate (), .enqueue 0]

theorem installedBetween_run :
    ∃ s, (handOver Unit fun _ : Unit ↦ ℕ).run {} installedBetween = some s ∧
      s.sink.delegate = some () ∧ s.sink.queuedProperties.lookup () = some (0, 1) ∧
        s.delivered = [] :=
  ⟨_, rfl, rfl, rfl, rfl⟩

theorem always_handedOver_iff_installedBetween :
    ¬(handOver Unit fun _ : Unit ↦ ℕ).Meets QueuesInTime {} installedBetween := by
  intro hmeets
  obtain ⟨s, hs, hdelegate, hqueued, -⟩ := installedBetween_run
  have h := ((always_handedOver_iff hs).mpr hmeets).last _ hs
  rw [h.drained (by simp [hdelegate])] at hqueued
  cases hqueued

theorem stuck_value_reachable :
    ¬∀ (es : List (HandOverEvent Unit fun _ : Unit ↦ ℕ)) (s : HandOver Unit fun _ : Unit ↦ ℕ),
      (handOver Unit fun _ : Unit ↦ ℕ).run {} es = some s → HandedOver s := by
  intro h
  obtain ⟨s, hs, hdelegate, hqueued, -⟩ := installedBetween_run
  rw [(h installedBetween s hs).drained (by simp [hdelegate])] at hqueued
  cases hqueued

end RialtoGStreamer.Sink
