import RialtoGStreamer.Properties.Model

/-!
# The client has what was last set

With a source attached, the client has been passed the last value given to
`setProperty` for each property, and what is still queued is the last value too.
-/

namespace RialtoGStreamer.Properties

open Library

variable {K : Kind}

/-- The client has been passed the value, for the source `id` where this matters. -/
def State.Has (s : State K) (p : K.Property) (value : K.Value p) (id : Int) : Prop :=
  ∃ i, s.passed p = some (K.member p value, i) ∧ (K.perSource p = true → i = id)

/-- What the member is to hold when `given` was last set. -/
def Kind.wanted (K : Kind) (p : K.Property) (given : Option (K.Value p)) : K.Value p :=
  (given.map (K.member p)).getD (K.initial p)

/-- With a source attached, the client has what was last set. -/
def Current (s : State K) : Prop :=
  s.sourceAttached = true → ∀ p value, s.last p = some value → s.Has p value s.sourceId

/-- What is queued is what was last set, and so was all that has been passed. -/
structure Unchanged (s : State K) : Prop where
  pending : ∀ p, s.queued p = true → s.value p = K.wanted p (s.last p)
  honest : ∀ d ∈ s.deliveries, d.value = K.wanted d.property d.given

structure Delivered (s : State K) : Prop extends Unchanged s where
  current : Current s

/-- CAPS attaches the source when each value set is queued for CAPS or with the
client; the client's cached value replaces no other value that is queued; and an
attached source goes with a client that has or is passed what was set. -/
def Timely (s : State K) : Event K → Prop
  | .setProperty p value =>
      s.sourceAttached = true → s.client = true ∨ s.Has p value s.sourceId
  | .getProperty p cached => K.onGet p = .replaces → s.client = true → s.queued p = true →
      cached.getD (s.value p) = s.value p
  | .readyToPaused .other streams => s.sourceAttached = true → ∀ p, s.last p ≠ none →
      streams = true ∧ p ∈ K.atPaused ∧ s.queued p = true
  | .caps id => s.sourceAttached = false → s.client = true → ∀ p value, s.last p = some value →
      p ∈ K.atCaps ∧ s.queued p = true ∨ s.Has p value id
  | .readyToPaused .same _ | .readyToPaused .none _ | .pausedToReady | .readyToNull => True

/-- Only `getProperty` lets a member differ from what was set. -/
def Held (s : State K) : Prop :=
  ∀ p, K.onGet p ≠ .replaces → s.value p = K.wanted p (s.last p)

/-! ## Passing what is queued -/

namespace State

variable (s : State K) (l : List K.Property)

theorem passQueued_queued (p q : K.Property) :
    (s.passQueued p).queued q = (s.queued q && decide (q ≠ p)) := by
  unfold passQueued
  by_cases hqp : q = p
  · subst hqp
    split <;> simp_all
  · split <;> simp [hqp]

theorem passQueued_passed (p q : K.Property) : (s.passQueued p).passed q =
    if q = p ∧ s.queued q = true then some (s.value q, s.sourceId) else s.passed q := by
  unfold passQueued
  by_cases hqp : q = p
  · subst hqp
    split <;> simp_all [pass]
  · split <;> simp [hqp, pass]

theorem passQueued_frame (p : K.Property) :
    (s.passQueued p).value = s.value ∧ (s.passQueued p).last = s.last ∧
      (s.passQueued p).sourceId = s.sourceId ∧ (s.passQueued p).client = s.client ∧
      (s.passQueued p).sourceAttached = s.sourceAttached := by
  unfold passQueued
  split <;> exact ⟨rfl, rfl, rfl, rfl, rfl⟩

theorem passAllQueued_frame :
    (s.passAllQueued l).value = s.value ∧ (s.passAllQueued l).last = s.last ∧
      (s.passAllQueued l).sourceId = s.sourceId ∧ (s.passAllQueued l).client = s.client ∧
      (s.passAllQueued l).sourceAttached = s.sourceAttached := by
  induction l generalizing s with
  | nil => exact ⟨rfl, rfl, rfl, rfl, rfl⟩
  | cons p l ih =>
      obtain ⟨hvalue, hlast, hid, hclient, hattached⟩ := ih (s.passQueued p)
      obtain ⟨hvalue', hlast', hid', hclient', hattached'⟩ := s.passQueued_frame p
      exact ⟨hvalue.trans hvalue', hlast.trans hlast', hid.trans hid', hclient.trans hclient',
        hattached.trans hattached'⟩

theorem queued_passAllQueued (q : K.Property) :
    (s.passAllQueued l).queued q = (s.queued q && decide (q ∉ l)) := by
  induction l generalizing s with
  | nil => simp [passAllQueued]
  | cons p l ih =>
      change ((s.passQueued p).passAllQueued l).queued q = _
      rw [ih, passQueued_queued, Bool.and_assoc]
      simp

theorem passed_passAllQueued (q : K.Property) : (s.passAllQueued l).passed q =
    if q ∈ l ∧ s.queued q = true then some (s.value q, s.sourceId) else s.passed q := by
  induction l generalizing s with
  | nil => simp [passAllQueued]
  | cons p l ih =>
      change ((s.passQueued p).passAllQueued l).passed q = _
      obtain ⟨hvalue, -, hid, -, -⟩ := s.passQueued_frame p
      rw [ih, passQueued_queued, passQueued_passed, hvalue, hid]
      by_cases hqp : q = p
      · simp [hqp]
      · simp [hqp]

theorem mem_deliveries_passAllQueued {d : Delivery K}
    (hd : d ∈ (s.passAllQueued l).deliveries) :
    d ∈ s.deliveries ∨ ∃ p, s.queued p = true ∧ d = ⟨p, s.value p, s.sourceId, s.last p⟩ := by
  induction l generalizing s with
  | nil => exact Or.inl hd
  | cons p l ih =>
      obtain ⟨hvalue, hlast, hid, -, -⟩ := s.passQueued_frame p
      rcases ih (s.passQueued p) hd with hold | ⟨q, hq, rfl⟩
      · unfold passQueued at hold
        split at hold
        next hqueued =>
          rcases List.mem_append.mp hold with hold | hnew
          · exact Or.inl hold
          · exact Or.inr ⟨p, hqueued, List.mem_singleton.mp hnew⟩
        · exact Or.inl hold
      · rw [hvalue, hlast, hid]
        rw [passQueued_queued, Bool.and_eq_true] at hq
        exact Or.inr ⟨q, hq.1, rfl⟩

end State

theorem unchanged_passAllQueued {s : State K} (h : Unchanged s) (l : List K.Property) :
    Unchanged (s.passAllQueued l) := by
  obtain ⟨hvalue, hlast, -, -, -⟩ := s.passAllQueued_frame l
  constructor
  · intro p hqueued
    rw [State.queued_passAllQueued, Bool.and_eq_true] at hqueued
    rw [hvalue, hlast]
    exact h.pending p hqueued.1
  · intro d hd
    rcases s.mem_deliveries_passAllQueued l hd with hold | ⟨p, hqueued, rfl⟩
    · exact h.honest d hold
    · exact h.pending p hqueued

/-- After the flush the client has what was queued for it and what it had. -/
theorem current_passAllQueued_iff {s : State K} (h : Unchanged s) (l : List K.Property) :
    Current (s.passAllQueued l) ↔ (s.sourceAttached = true → ∀ p value, s.last p = some value →
      p ∈ l ∧ s.queued p = true ∨ s.Has p value s.sourceId) := by
  obtain ⟨-, hlast, hid, -, hattached⟩ := s.passAllQueued_frame l
  unfold Current
  rw [hattached, hlast, hid]
  refine forall_congr' fun _ ↦ forall_congr' fun p ↦ forall_congr' fun value ↦
    forall_congr' fun hvalue ↦ ?_
  unfold State.Has
  rw [State.passed_passAllQueued]
  by_cases hflushed : p ∈ l ∧ s.queued p = true
  · have hmember : s.value p = K.member p value := by
      rw [h.pending p hflushed.2, hvalue]
      rfl
    rw [if_pos hflushed, hmember]
    exact iff_of_true ⟨s.sourceId, rfl, fun _ ↦ rfl⟩ (Or.inl hflushed)
  · rw [if_neg hflushed]
    exact (or_iff_right hflushed).symm

theorem delivered_iff_current {s : State K} (h : Unchanged s) : Delivered s ↔ Current s :=
  ⟨fun hs ↦ hs.current, fun hcurrent ↦ ⟨h, hcurrent⟩⟩

/-! ## One step -/

theorem value_store (s : State K) (p : K.Property) (value : K.Value p) :
    (s.store p value).value p = K.wanted p ((s.store p value).last p) := by
  simp [State.store, Kind.wanted]

theorem unchanged_store {s : State K} (h : Unchanged s) (p : K.Property) (value : K.Value p) :
    Unchanged (s.store p value) := by
  constructor
  · intro q hqueued
    by_cases hqp : q = p
    · subst hqp
      exact value_store s q value
    · simp only [State.store, Function.update_of_ne hqp]
      exact h.pending q hqueued
  · exact h.honest

theorem unchanged_enqueue {s : State K} (h : Unchanged s) {p : K.Property}
    (hvalue : s.value p = K.wanted p (s.last p)) : Unchanged (s.enqueue p) := by
  constructor
  · intro q hqueued
    by_cases hqp : q = p
    · subst hqp
      exact hvalue
    · simp only [State.enqueue, Function.update_of_ne hqp] at hqueued
      exact h.pending q hqueued
  · exact h.honest

theorem unchanged_pass {s : State K} (h : Unchanged s) {p : K.Property}
    (hvalue : s.value p = K.wanted p (s.last p)) : Unchanged (s.pass p) := by
  constructor
  · exact h.pending
  · intro d hd
    rcases List.mem_append.mp hd with hold | hnew
    · exact h.honest d hold
    · rw [List.mem_singleton.mp hnew]
      exact hvalue

/-- After storing one value the client lacks at most this one. -/
theorem current_store_iff {s : State K} (h : Current s) (p : K.Property) (value : K.Value p) :
    Current (s.store p value) ↔ (s.sourceAttached = true → s.Has p value s.sourceId) := by
  constructor
  · intro hcurrent hattached
    exact hcurrent hattached p value (by simp [State.store])
  · intro hp hattached q value' hlast
    by_cases hqp : q = p
    · subst hqp
      simp only [State.store, Function.update_self, Option.some.injEq] at hlast
      rw [← hlast]
      exact hp hattached
    · simp only [State.store, Function.update_of_ne hqp] at hlast
      exact h hattached q value' hlast

theorem current_pass_store {s : State K} (h : Current s) (p : K.Property) (value : K.Value p) :
    Current ((s.store p value).pass p) := by
  intro hattached q value' hlast
  unfold State.Has
  by_cases hqp : q = p
  · subst hqp
    simp only [State.pass, State.store, Function.update_self, Option.some.injEq] at hlast ⊢
    exact ⟨s.sourceId, by rw [hlast], fun _ ↦ rfl⟩
  · simp only [State.pass, State.store, Function.update_of_ne hqp] at hlast ⊢
    exact h hattached q value' hlast

theorem delivered_setProperty_iff {s : State K} (h : Delivered s) (p : K.Property)
    (value : K.Value p) :
    Delivered (s.setProperty p value) ↔ Timely s (.setProperty p value) := by
  have hstore := unchanged_store h.toUnchanged p value
  unfold State.setProperty Timely
  split
  next hqueue =>
    apply (delivered_iff_current (unchanged_enqueue hstore (value_store s p value))).trans
    refine (current_store_iff h.current p value).trans (forall_congr' fun hattached ↦ ?_)
    -- With the source attached only a missing client makes the value wait.
    have hclient : ¬s.client = true := by simpa [hattached] using hqueue
    exact (or_iff_right hclient).symm
  next hpass =>
    have hclient : s.client = true := by
      by_contra hnone
      exact hpass (by simp [hnone])
    have hcurrent := current_pass_store h.current p value
    refine iff_of_true ?_ fun _ ↦ Or.inl hclient
    exact ⟨unchanged_pass hstore (value_store s p value), hcurrent⟩

theorem delivered_getProperty_iff {s : State K} (hheld : Held s) (h : Delivered s)
    (p : K.Property) (cached : Option (K.Value p)) :
    Delivered (s.getProperty p cached) ↔ Timely s (.getProperty p cached) := by
  unfold State.getProperty Timely
  cases hget : K.onGet p with
  | nothing => exact iff_of_true h fun hreplaces ↦ absurd (hget.symm.trans hreplaces) (by simp)
  | queues =>
      refine iff_of_true ?_ fun hreplaces ↦ absurd (hget.symm.trans hreplaces) (by simp)
      dsimp only
      split
      · exact h
      · have hvalue := hheld p (by simp [hget])
        exact ⟨unchanged_enqueue h.toUnchanged hvalue, h.current⟩
  | replaces =>
      dsimp only
      split
      next hclient =>
        constructor
        · intro ht _ _ hqueued
          have hnew : Function.update s.value p (cached.getD (s.value p)) p = _ :=
            ht.pending p hqueued
          rw [Function.update_self] at hnew
          exact hnew.trans (h.pending p hqueued).symm
        · intro hcached
          refine ⟨⟨fun q hqueued ↦ ?_, h.honest⟩, h.current⟩
          by_cases hqp : q = p
          · subst hqp
            change Function.update s.value q _ q = _
            rw [Function.update_self, hcached hget hclient hqueued]
            exact h.pending q hqueued
          · change Function.update s.value p _ q = _
            rw [Function.update_of_ne hqp]
            exact h.pending q hqueued
      next hclient => exact iff_of_true h fun _ hsome ↦ absurd hsome hclient

theorem delivered_readyToPaused_iff {s : State K} (h : Delivered s) (client : ClientAfter)
    (streams : Bool) :
    Delivered (s.readyToPaused client streams) ↔ Timely s (.readyToPaused client streams) := by
  unfold State.readyToPaused
  have hunchanged : Unchanged (s.attachClient client) := by
    cases client <;> exact ⟨h.pending, h.honest⟩
  cases client with
  | same =>
      refine iff_of_true ?_ trivial
      have hcurrent : Current (s.attachClient .same) := h.current
      dsimp only
      split
      · refine ⟨unchanged_passAllQueued hunchanged K.atPaused, ?_⟩
        rw [current_passAllQueued_iff hunchanged]
        exact fun hattached p value hlast ↦ Or.inr (hcurrent hattached p value hlast)
      · exact ⟨hunchanged, hcurrent⟩
  | none =>
      refine iff_of_true ?_ trivial
      have hcurrent : Current (s.attachClient .none) := h.current
      simpa [State.attachClient] using Delivered.mk hunchanged hcurrent
  | other =>
      have hnone : ∀ p value id, ¬(s.attachClient .other).Has p value id := by
        rintro p value id ⟨i, hpassed, -⟩
        exact absurd hpassed (by simp [State.attachClient])
      unfold Timely
      cases streams with
      | false =>
          refine (delivered_iff_current hunchanged).trans (forall_congr' fun _ ↦ ?_)
          constructor
          · intro hcurrent p hset
            obtain ⟨value, hvalue⟩ := Option.ne_none_iff_exists'.mp hset
            exact absurd (hcurrent p value hvalue) (hnone p value _)
          · intro hflushed p value hvalue
            have hset : s.last p ≠ none := Option.ne_none_iff_exists'.mpr ⟨value, hvalue⟩
            exact absurd (hflushed p hset).1 Bool.false_ne_true
      | true =>
          have ht := unchanged_passAllQueued hunchanged K.atPaused
          apply (delivered_iff_current ht).trans
          refine (current_passAllQueued_iff hunchanged K.atPaused).trans
            (forall_congr' fun _ ↦ ?_)
          constructor
          · intro hcurrent p hset
            obtain ⟨value, hvalue⟩ := Option.ne_none_iff_exists'.mp hset
            exact ⟨rfl, (hcurrent p value hvalue).resolve_right (hnone p value _)⟩
          · intro hflushed p value hvalue
            have hset : s.last p ≠ none := Option.ne_none_iff_exists'.mpr ⟨value, hvalue⟩
            exact Or.inl (hflushed p hset).2

theorem delivered_caps_iff {s : State K} (h : Delivered s) (id : Int) :
    Delivered (s.caps id) ↔ Timely s (.caps id) := by
  unfold State.caps Timely
  split
  next hskip =>
    apply iff_of_true h
    intro hattached hclient
    exact absurd hskip (by simp [hattached, hclient])
  next hattach =>
    have hready : s.sourceAttached = false ∧ s.client = true := by simpa using hattach
    have hunchanged : Unchanged { s with sourceAttached := true, sourceId := id } :=
      ⟨h.pending, h.honest⟩
    have ht := unchanged_passAllQueued hunchanged K.atCaps
    apply (delivered_iff_current ht).trans
    apply (current_passAllQueued_iff hunchanged K.atCaps).trans
    exact ⟨fun hcurrent _ _ ↦ hcurrent rfl, fun htimely _ ↦ htimely hready.1 hready.2⟩

theorem delivered_iff_of_step {s : State K} (hheld : Held s) (h : Delivered s) (e : Event K) :
    Delivered (s.step e) ↔ Timely s e := by
  cases e with
  | setProperty p value => exact delivered_setProperty_iff h p value
  | getProperty p cached => exact delivered_getProperty_iff hheld h p cached
  | readyToPaused client streams => exact delivered_readyToPaused_iff h client streams
  | pausedToReady =>
      refine iff_of_true ?_ trivial
      unfold State.step
      dsimp only
      split
      · exact ⟨⟨h.pending, h.honest⟩, fun hattached ↦ absurd hattached Bool.false_ne_true⟩
      · exact h
  | readyToNull => exact iff_of_true ⟨⟨h.pending, h.honest⟩, h.current⟩ trivial
  | caps id => exact delivered_caps_iff h id

theorem held_passAllQueued {s : State K} (h : Held s) (l : List K.Property) :
    Held (s.passAllQueued l) := by
  obtain ⟨hvalue, hlast, -, -, -⟩ := s.passAllQueued_frame l
  intro p hget
  rw [hvalue, hlast]
  exact h p hget

theorem held_store {s : State K} (h : Held s) (p : K.Property) (value : K.Value p) :
    Held (s.store p value) := by
  intro q hget
  by_cases hqp : q = p
  · subst hqp
    exact value_store s q value
  · simp only [State.store, Function.update_of_ne hqp]
    exact h q hget

theorem held_of_step {s : State K} (h : Held s) (e : Event K) : Held (s.step e) := by
  cases e with
  | setProperty p value =>
      have hstore := held_store h p value
      change Held (s.setProperty p value)
      unfold State.setProperty
      split <;> exact hstore
  | getProperty p cached =>
      change Held (s.getProperty p cached)
      unfold State.getProperty
      cases hget : K.onGet p with
      | nothing => exact h
      | queues =>
          dsimp only
          split <;> exact h
      | replaces =>
          dsimp only
          split
          · intro q hq
            have hqp : q ≠ p := by
              rintro rfl
              exact hq hget
            change Function.update s.value p _ q = _
            rw [Function.update_of_ne hqp]
            exact h q hq
          · exact h
  | readyToPaused client streams =>
      have hclient : Held (s.attachClient client) := by cases client <;> exact h
      change Held (s.readyToPaused client streams)
      unfold State.readyToPaused
      dsimp only
      split
      · exact held_passAllQueued hclient K.atPaused
      · exact hclient
  | pausedToReady =>
      unfold State.step
      dsimp only
      split <;> exact h
  | readyToNull => exact h
  | caps id =>
      change Held (s.caps id)
      unfold State.caps
      split
      · exact h
      · exact held_passAllQueued (s := { s with sourceAttached := true, sourceId := id }) h K.atCaps

/-! ## Runs -/

theorem delivered_start : Delivered ({} : State K) :=
  ⟨⟨fun _ _ ↦ rfl, fun _ hd ↦ absurd hd List.not_mem_nil⟩,
    fun hattached ↦ absurd hattached Bool.false_ne_true⟩

theorem machine_total (s : State K) (es : List (Event K)) : ∃ t, (machine K).run s es = some t := by
  induction es generalizing s with
  | nil => exact ⟨s, rfl⟩
  | cons e es ih => exact ih (s.step e)

/-- The volume is set between READY->PAUSED and CAPS. -/
def volumeBeforeCaps : List (Event PullModeDelegate.audio.kind) :=
  [.readyToPaused .other true, .setProperty AudioProperty.volume (0.5 : Float), .caps 1]

end RialtoGStreamer.Properties
