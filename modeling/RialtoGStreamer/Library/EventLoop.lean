import Mathlib.Logic.Function.Basic
import RialtoGStreamer.Library.Machine

/-!
# Threads with mutexes and event loops

Threads run code with lock guards and call into event loops. A call blocks its
thread until the thread of the loop has run the job; on that thread itself the job
is run in place. Some of the mutexes are watched. Code is `Safe` if it never takes
a second watched mutex, and never calls or joins a loop while it holds one. Threads
that run safe code are never blocked in a call with a watched mutex.
-/

namespace RialtoGStreamer.Library.EventLoop

/-- `scope` is the scope of a lock guard, `wait` a wait on a condition variable of
the mutex, and `join` waits until a loop has nothing left to do. `choose` is a
branch on anything that is not modelled. -/
inductive Code (κ ℓ χ ω α : Type) where
  | skip
  | scope (m : κ) (inner : Code κ ℓ χ ω α)
  | wait (m : κ)
  | call (l : ℓ) (job : α)
  | post (l : ℓ) (job : α)
  | join (l : ℓ)
  | write (w : ω)
  | test (c : χ) (yes no : Code κ ℓ χ ω α)
  | choose (yes no : Code κ ℓ χ ω α)
  | seq (first second : Code κ ℓ χ ω α)

namespace Code

variable {κ ℓ χ ω α : Type}

def block (cs : List (Code κ ℓ χ ω α)) : Code κ ℓ χ ω α := cs.foldr seq skip

def maybe (c : Code κ ℓ χ ω α) : Code κ ℓ χ ω α := choose c skip

end Code

/-- What the threads run: the code of the jobs, and of the entries through which
other threads come in. -/
structure Program where
  Mutex : Type
  Loop : Type
  Test : Type
  Write : Type
  Job : Type
  Entry : Type
  World : Type
  eval : World → Test → Bool
  exec : World → Write → World
  body : Job → Code Mutex Loop Test Write Job
  entry : Entry → Code Mutex Loop Test Write Job
  decidableMutex : DecidableEq Mutex
  decidableLoop : DecidableEq Loop

attribute [instance] Program.decidableMutex Program.decidableLoop

abbrev Program.Code (P : Program) : Type :=
  EventLoop.Code P.Mutex P.Loop P.Test P.Write P.Job

/-- The thread of a loop, or another one. -/
inductive Thread (ℓ τ : Type) where
  | loop (l : ℓ)
  | client (t : τ)
  deriving DecidableEq

/-- What a thread has left to do: to run code, to leave a scope, or to take the mutex
again that it gave up for a wait. -/
inductive Frame (P : Program) where
  | run (code : P.Code)
  | release (m : P.Mutex)
  | retake (m : P.Mutex)

/-- The caller is the thread that waits for the job, on the thread of a loop. -/
inductive Pc (P : Program) (τ : Type) where
  | idle
  | running (frames : List (Frame P)) (caller : Option (Thread P.Loop τ))
  | calling (l : P.Loop) (frames : List (Frame P)) (caller : Option (Thread P.Loop τ))

structure State (P : Program) (τ : Type) where
  world : P.World
  owner : P.Mutex → Option (Thread P.Loop τ) := fun _ ↦ none
  queue : P.Loop → List (P.Job × Option (Thread P.Loop τ)) := fun _ ↦ []
  pc : Thread P.Loop τ → Pc P τ := fun _ ↦ .idle

/-- `choice` is the outcome of a `choose`, and of a post: whether the loop accepts. -/
inductive Event (P : Program) (τ : Type) where
  | enter (t : τ) (e : P.Entry)
  | take (l : P.Loop)
  | advance (u : Thread P.Loop τ) (choice : Bool)

variable {P : Program} {τ : Type} [DecidableEq τ]

namespace Pc

/-- The mutex that the thread is about to take. -/
def waitsFor : Pc P τ → Option P.Mutex
  | .running (.run (.scope m _) :: _) _ | .running (.retake m :: _) _ => some m
  | _ => none

/-- The loop whose end the thread waits for. -/
def joins : Pc P τ → Option P.Loop
  | .running (.run (.join l) :: _) _ => some l
  | _ => none

/-- The loop that the thread is blocked in a call of. -/
def calls : Pc P τ → Option P.Loop
  | .calling l _ _ => some l
  | _ => none

/-- The test that the thread is about to make. -/
def tests : Pc P τ → Option P.Test
  | .running (.run (.test c _ _) :: _) _ => some c
  | _ => none

end Pc

namespace State

def goto (s : State P τ) (u : Thread P.Loop τ) (p : Pc P τ) : State P τ :=
  { s with pc := Function.update s.pc u p }

def setOwner (s : State P τ) (m : P.Mutex) (owner : Option (Thread P.Loop τ)) : State P τ :=
  { s with owner := Function.update s.owner m owner }

def push (s : State P τ) (l : P.Loop) (job : P.Job) (caller : Option (Thread P.Loop τ)) :
    State P τ :=
  { s with queue := Function.update s.queue l (s.queue l ++ [(job, caller)]) }

/-- The job of a call is done: its thread goes on. -/
def wake (s : State P τ) : Option (Thread P.Loop τ) → State P τ
  | none => s
  | some u =>
      match s.pc u with
      | .calling _ frames caller => s.goto u (.running frames caller)
      | _ => s

/-- Thread `u` takes a mutex that is free. -/
def take (s : State P τ) (u : Thread P.Loop τ) (m : P.Mutex) (frames : List (Frame P))
    (caller : Option (Thread P.Loop τ)) : Option (State P τ) :=
  if s.owner m = none then some ((s.setOwner m (some u)).goto u (.running frames caller))
  else none

/-- Thread `u` gives up a mutex that it has. -/
def giveUp (s : State P τ) (u : Thread P.Loop τ) (m : P.Mutex) (frames : List (Frame P))
    (caller : Option (Thread P.Loop τ)) : Option (State P τ) :=
  if s.owner m = some u then some ((s.setOwner m none).goto u (.running frames caller))
  else none

/-- One instruction of thread `u`, with the frames below it. -/
def execute (s : State P τ) (u : Thread P.Loop τ) (choice : Bool) (rest : List (Frame P))
    (caller : Option (Thread P.Loop τ)) : P.Code → Option (State P τ)
  | .skip => some (s.goto u (.running rest caller))
  | .scope m inner => s.take u m (.run inner :: .release m :: rest) caller
  | .wait m => s.giveUp u m (.retake m :: rest) caller
  | .call l job =>
      if u = .loop l then some (s.goto u (.running (.run (P.body job) :: rest) caller))
      else if choice then some ((s.push l job (some u)).goto u (.calling l rest caller))
      else some (s.goto u (.running rest caller))
  | .post l job =>
      some ((if choice then s.push l job none else s).goto u (.running rest caller))
  | .join l =>
      match s.queue l, s.pc (.loop l) with
      | [], .idle => some (s.goto u (.running rest caller))
      | _, _ => none
  | .write w => some ({ s with world := P.exec s.world w }.goto u (.running rest caller))
  | .test c yes no =>
      some (s.goto u (.running (.run (if P.eval s.world c then yes else no) :: rest) caller))
  | .choose yes no =>
      some (s.goto u (.running (.run (if choice then yes else no) :: rest) caller))
  | .seq first second => some (s.goto u (.running (.run first :: .run second :: rest) caller))

def step (s : State P τ) : Event P τ → Option (State P τ)
  | .enter t e =>
      match s.pc (.client t) with
      | .idle => some (s.goto (.client t) (.running [.run (P.entry e)] none))
      | _ => none
  | .take l =>
      match s.pc (.loop l), s.queue l with
      | .idle, (job, caller) :: rest =>
          some ({ s with queue := Function.update s.queue l rest }.goto (.loop l)
            (.running [.run (P.body job)] caller))
      | _, _ => none
  | .advance u choice =>
      match s.pc u with
      | .running [] caller => some ((s.goto u .idle).wake caller)
      | .running (.run code :: rest) caller => s.execute u choice rest caller code
      | .running (.release m :: rest) caller => s.giveUp u m rest caller
      | .running (.retake m :: rest) caller => s.take u m rest caller
      | _ => none

end State

def machine (P : Program) (τ : Type) [DecidableEq τ] : Machine (State P τ) (Event P τ) where
  step := State.step

/-! ## The watched mutexes -/

/-- Which mutexes are watched, and which outcomes of the tests are expected, by the
watched mutex that is held. -/
structure Watch (κ χ : Type) where
  watched : κ → Bool
  expected : Option κ → χ → Bool → Prop

namespace Watch

section

variable {κ ℓ χ ω α : Type} {W : Watch κ χ} {h : Option κ}

/-- The code may run while the watched mutex `h` is held, or none. -/
def Safe (W : Watch κ χ) (h : Option κ) : Code κ ℓ χ ω α → Prop
  | .skip | .post _ _ | .write _ => True
  | .scope m inner => if W.watched m then h = none ∧ W.Safe (some m) inner else W.Safe h inner
  | .wait m => W.watched m = true → h = some m
  | .call _ _ | .join _ => h = none
  | .test c yes no =>
      (W.expected h c true → W.Safe h yes) ∧ (W.expected h c false → W.Safe h no)
  | .choose yes no => W.Safe h yes ∧ W.Safe h no
  | .seq first second => W.Safe h first ∧ W.Safe h second

@[simp] theorem safe_block_iff {cs : List (Code κ ℓ χ ω α)} :
    W.Safe h (.block cs) ↔ ∀ c ∈ cs, W.Safe h c := by
  induction cs with
  | nil => simp [Code.block, Safe]
  | cons c cs ih =>
      rw [List.forall_mem_cons, ← ih]
      rfl

@[simp] theorem safe_maybe_iff {c : Code κ ℓ χ ω α} : W.Safe h (.maybe c) ↔ W.Safe h c := by
  simp [Code.maybe, Safe]

end

variable (W : Watch P.Mutex P.Test)

/-- The frames may run one after the other, and leave no watched mutex behind. -/
def FramesSafe (h : Option P.Mutex) : List (Frame P) → Prop
  | [] => h = none
  | .run code :: rest => W.Safe h code ∧ FramesSafe h rest
  | .release m :: rest =>
      if W.watched m then h = some m ∧ FramesSafe none rest else FramesSafe h rest
  | .retake m :: rest =>
      if W.watched m then h = none ∧ FramesSafe (some m) rest else FramesSafe h rest

/-- The watched mutex that thread `u` holds. -/
def Holds (s : State P τ) (u : Thread P.Loop τ) (h : Option P.Mutex) : Prop :=
  ∀ m, h = some m ↔ W.watched m = true ∧ s.owner m = some u

def PcSafe (h : Option P.Mutex) : Pc P τ → Prop
  | .idle => h = none
  | .running frames _ => W.FramesSafe h frames
  | .calling _ frames _ => h = none ∧ W.FramesSafe none frames

def Kept (s : State P τ) : Prop := ∀ u, ∃ h, W.Holds s u h ∧ W.PcSafe h (s.pc u)

/-- A test comes out as expected for what its thread holds. -/
def Follows (s : State P τ) : Event P τ → Prop
  | .advance u _ => ∀ c h, (s.pc u).tests = some c → W.Holds s u h →
      W.expected h c (P.eval s.world c)
  | _ => True

/-! ## One step -/

variable {W} {h : Option P.Mutex}

omit [DecidableEq τ] in
theorem Holds.congr {s s' : State P τ} {u : Thread P.Loop τ} (hholds : W.Holds s u h)
    (howner : s'.owner = s.owner) : W.Holds s' u h := by
  intro m
  rw [howner]
  exact hholds m

/-- One thread goes on, and the mutexes stay with their owners. -/
theorem Kept.goto {s s' : State P τ} (hkept : W.Kept s) (howner : s'.owner = s.owner)
    (hpc : s'.pc = s.pc) {u : Thread P.Loop τ} {p : Pc P τ}
    (hp : ∀ h, W.Holds s u h → W.PcSafe h (s.pc u) → W.PcSafe h p) : W.Kept (s'.goto u p) := by
  intro v
  obtain ⟨h, hholds, hsafe⟩ := hkept v
  refine ⟨h, hholds.congr howner, ?_⟩
  by_cases hvu : v = u
  · subst hvu
    simpa [State.goto] using hp h hholds hsafe
  · simpa [State.goto, hvu, hpc] using hsafe

theorem Kept.wake {s : State P τ} (hkept : W.Kept s) (caller : Option (Thread P.Loop τ)) :
    W.Kept (s.wake caller) := by
  cases caller with
  | none => exact hkept
  | some u =>
      unfold State.wake
      dsimp only
      split
      next l frames caller hpc =>
        refine hkept.goto rfl rfl fun h _ hsafe ↦ ?_
        rw [hpc] at hsafe
        obtain ⟨rfl, hframes⟩ := hsafe
        exact hframes
      · exact hkept

/-- A mutex changes hands between nobody and thread `u`. -/
theorem Kept.setOwner {s : State P τ} (hkept : W.Kept s) {u : Thread P.Loop τ} {m : P.Mutex}
    {owner : Option (Thread P.Loop τ)} (hbefore : ∀ v, v ≠ u → s.owner m ≠ some v)
    (hafter : ∀ v, v ≠ u → owner ≠ some v) {p : Pc P τ}
    (hp : ∃ h, W.Holds (s.setOwner m owner) u h ∧ W.PcSafe h p) :
    W.Kept ((s.setOwner m owner).goto u p) := by
  intro v
  by_cases hvu : v = u
  · subst hvu
    obtain ⟨h, hholds, hsafe⟩ := hp
    exact ⟨h, hholds, by simpa [State.goto] using hsafe⟩
  · obtain ⟨h, hholds, hsafe⟩ := hkept v
    refine ⟨h, fun m' ↦ ?_, by simpa [State.goto, State.setOwner, hvu] using hsafe⟩
    by_cases hm : m' = m
    · subst hm
      have hother : h = some m' ↔ False := by simpa [hbefore v hvu] using hholds m'
      simpa [State.goto, State.setOwner, hafter v hvu] using hother
    · simpa [State.goto, State.setOwner, hm] using hholds m'

omit [DecidableEq τ] in
theorem Holds.setOwner_of_unwatched {s : State P τ} {u : Thread P.Loop τ} {m : P.Mutex}
    (hholds : W.Holds s u h) (hm : W.watched m = false) (owner : Option (Thread P.Loop τ)) :
    W.Holds (s.setOwner m owner) u h := by
  intro m'
  by_cases hmm : m' = m
  · subst hmm
    simpa [hm] using hholds m'
  · simpa [State.setOwner, hmm] using hholds m'

omit [DecidableEq τ] in
theorem Holds.take {s : State P τ} {u : Thread P.Loop τ} {m : P.Mutex}
    (hholds : W.Holds s u none) (hm : W.watched m = true) :
    W.Holds (s.setOwner m (some u)) u (some m) := by
  intro m'
  by_cases hmm : m' = m
  · subst hmm
    simp [State.setOwner, hm]
  · have hnot := hholds m'
    simp only [reduceCtorEq, false_iff] at hnot
    simpa [State.setOwner, hmm, Ne.symm hmm] using hnot

omit [DecidableEq τ] in
theorem Holds.giveUp {s : State P τ} {u : Thread P.Loop τ} {m : P.Mutex}
    (hholds : W.Holds s u (some m)) : W.Holds (s.setOwner m none) u none := by
  intro m'
  by_cases hmm : m' = m
  · subst hmm
    simp [State.setOwner]
  · have hother := hholds m'
    simp only [Option.some.injEq, Ne.symm hmm, false_iff] at hother
    simpa [State.setOwner, hmm] using hother

theorem Kept.take {s t : State P τ} (hkept : W.Kept s) {u : Thread P.Loop τ} {m : P.Mutex}
    {frames : List (Frame P)} {caller : Option (Thread P.Loop τ)}
    (hwatched : ∀ h, W.watched m = true → W.PcSafe h (s.pc u) →
      h = none ∧ W.FramesSafe (some m) frames)
    (hunwatched : ∀ h, W.watched m = false → W.PcSafe h (s.pc u) → W.FramesSafe h frames)
    (hstep : s.take u m frames caller = some t) : W.Kept t := by
  unfold State.take at hstep
  split at hstep <;> cases hstep
  next hfree =>
    refine hkept.setOwner (by simp [hfree]) (fun v hv ↦ by simp [Ne.symm hv]) ?_
    obtain ⟨h, hholds, hsafe⟩ := hkept u
    cases hm : W.watched m with
    | true =>
        obtain ⟨rfl, hframes⟩ := hwatched h hm hsafe
        exact ⟨some m, hholds.take hm, hframes⟩
    | false => exact ⟨h, hholds.setOwner_of_unwatched hm _, hunwatched h hm hsafe⟩

theorem Kept.giveUp {s t : State P τ} (hkept : W.Kept s) {u : Thread P.Loop τ} {m : P.Mutex}
    {frames : List (Frame P)} {caller : Option (Thread P.Loop τ)}
    (hwatched : ∀ h, W.watched m = true → W.PcSafe h (s.pc u) →
      h = some m ∧ W.FramesSafe none frames)
    (hunwatched : ∀ h, W.watched m = false → W.PcSafe h (s.pc u) → W.FramesSafe h frames)
    (hstep : s.giveUp u m frames caller = some t) : W.Kept t := by
  unfold State.giveUp at hstep
  split at hstep <;> cases hstep
  next howner =>
    refine hkept.setOwner (fun v hv ↦ by simp [howner, Ne.symm hv]) (by simp) ?_
    obtain ⟨h, hholds, hsafe⟩ := hkept u
    cases hm : W.watched m with
    | true =>
        obtain ⟨rfl, hframes⟩ := hwatched h hm hsafe
        exact ⟨none, hholds.giveUp, hframes⟩
    | false => exact ⟨h, hholds.setOwner_of_unwatched hm none, hunwatched h hm hsafe⟩

theorem kept_execute (hbody : ∀ job, W.Safe none (P.body job)) {s t : State P τ}
    (hkept : W.Kept s) {u : Thread P.Loop τ} {choice : Bool} {rest : List (Frame P)}
    {caller : Option (Thread P.Loop τ)} {code : P.Code}
    (hpc : s.pc u = .running (.run code :: rest) caller)
    (hfollows : W.Follows s (.advance u choice))
    (hstep : s.execute u choice rest caller code = some t) : W.Kept t := by
  have hhere : ∀ {h}, W.PcSafe h (s.pc u) → W.Safe h code ∧ W.FramesSafe h rest := by
    intro h hsafe
    rwa [hpc] at hsafe
  -- What is known of `u` in its next place, when it keeps its mutexes.
  have hgoto : ∀ {s' : State P τ} {p : Pc P τ}, s'.owner = s.owner → s'.pc = s.pc →
      (∀ h, W.Holds s u h → W.Safe h code → W.FramesSafe h rest → W.PcSafe h p) →
        W.Kept (s'.goto u p) := by
    intro s' p howner hsame hp
    apply hkept.goto howner hsame
    intro h hholds hsafe
    exact hp h hholds (hhere hsafe).1 (hhere hsafe).2
  cases code with
  | skip =>
      cases hstep
      exact hgoto rfl rfl fun h _ _ hrest ↦ hrest
  | scope m inner =>
      refine hkept.take (fun h hm hsafe ↦ ?_) (fun h hm hsafe ↦ ?_) hstep
      · obtain ⟨hcode, hrest⟩ := hhere hsafe
        rw [Safe, if_pos hm] at hcode
        obtain ⟨rfl, hinner⟩ := hcode
        exact ⟨rfl, hinner, by simpa [FramesSafe, hm] using hrest⟩
      · obtain ⟨hcode, hrest⟩ := hhere hsafe
        simp only [Safe, hm, Bool.false_eq_true, if_false] at hcode
        exact ⟨hcode, by simpa [FramesSafe, hm] using hrest⟩
  | wait m =>
      refine hkept.giveUp (fun h hm hsafe ↦ ?_) (fun h hm hsafe ↦ ?_) hstep
      · obtain ⟨hcode, hrest⟩ := hhere hsafe
        obtain rfl : h = some m := hcode hm
        exact ⟨rfl, by simpa [FramesSafe, hm] using hrest⟩
      · simpa [FramesSafe, hm] using (hhere hsafe).2
  | call l job =>
      simp only [State.execute] at hstep
      split at hstep
      · cases hstep
        refine hgoto rfl rfl fun h _ hcode hrest ↦ ?_
        obtain rfl : h = none := hcode
        exact ⟨hbody job, hrest⟩
      · split at hstep <;> cases hstep
        · refine hgoto rfl rfl fun h _ hcode hrest ↦ ?_
          obtain rfl : h = none := hcode
          exact ⟨rfl, hrest⟩
        · exact hgoto rfl rfl fun h _ _ hrest ↦ hrest
  | post l job =>
      cases hstep
      cases choice <;> exact hgoto rfl rfl fun h _ _ hrest ↦ hrest
  | join l =>
      simp only [State.execute] at hstep
      split at hstep <;> cases hstep
      exact hgoto rfl rfl fun h _ _ hrest ↦ hrest
  | write w =>
      cases hstep
      exact hgoto rfl rfl fun h _ _ hrest ↦ hrest
  | test c yes no =>
      cases hstep
      refine hgoto rfl rfl fun h hholds hcode hrest ↦ ⟨?_, hrest⟩
      have hexpected := hfollows c h (by rw [hpc, Pc.tests]) hholds
      cases heval : P.eval s.world c with
      | true => exact hcode.1 (heval ▸ hexpected)
      | false => exact hcode.2 (heval ▸ hexpected)
  | choose yes no =>
      cases hstep
      refine hgoto rfl rfl fun h _ hcode hrest ↦ ⟨?_, hrest⟩
      cases choice
      · exact hcode.2
      · exact hcode.1
  | seq first second =>
      cases hstep
      exact hgoto rfl rfl fun h _ hcode hrest ↦ ⟨hcode.1, hcode.2, hrest⟩

theorem kept_step (hbody : ∀ job, W.Safe none (P.body job))
    (hentry : ∀ e, W.Safe none (P.entry e)) {s t : State P τ} {e : Event P τ}
    (hkept : W.Kept s) (hfollows : W.Follows s e) (hstep : s.step e = some t) : W.Kept t := by
  -- A thread that is idle holds nothing, so that it may begin any safe code.
  have hbegin : ∀ {s' : State P τ} {u : Thread P.Loop τ} {code : P.Code}
      {caller : Option (Thread P.Loop τ)}, s'.owner = s.owner → s'.pc = s.pc →
      s.pc u = .idle → W.Safe none code → W.Kept (s'.goto u (.running [.run code] caller)) := by
    intro s' u code caller howner hsame hidle hcode
    apply hkept.goto howner hsame
    intro h _ hsafe
    rw [hidle] at hsafe
    obtain rfl : h = none := hsafe
    exact ⟨hcode, rfl⟩
  cases e with
  | enter t e =>
      simp only [State.step] at hstep
      split at hstep <;> cases hstep
      next hidle => exact hbegin rfl rfl hidle (hentry e)
  | take l =>
      simp only [State.step] at hstep
      split at hstep <;> cases hstep
      next job caller rest hidle hqueue => exact hbegin rfl rfl hidle (hbody job)
  | advance u choice =>
      simp only [State.step] at hstep
      split at hstep
      next caller hpc =>
        cases hstep
        refine (hkept.goto rfl rfl fun h _ hsafe ↦ ?_).wake caller
        rw [hpc] at hsafe
        exact hsafe
      next code rest caller hpc => exact kept_execute hbody hkept hpc hfollows hstep
      next m rest caller hpc =>
        refine hkept.giveUp (fun h hm hsafe ↦ ?_) (fun h hm hsafe ↦ ?_) hstep
        · simpa [hpc, PcSafe, FramesSafe, hm] using hsafe
        · simpa [hpc, PcSafe, FramesSafe, hm] using hsafe
      next m rest caller hpc =>
        refine hkept.take (fun h hm hsafe ↦ ?_) (fun h hm hsafe ↦ ?_) hstep
        · simpa [hpc, PcSafe, FramesSafe, hm] using hsafe
        · simpa [hpc, PcSafe, FramesSafe, hm] using hsafe
      · cases hstep

/-! ## Runs -/

omit [DecidableEq τ] in
theorem kept_start (world : P.World) : W.Kept ({ world } : State P τ) :=
  fun _ ↦ ⟨none, fun _ ↦ by simp, rfl⟩

omit [DecidableEq τ] in
theorem Kept.not_owner_of_calls {s : State P τ} (hkept : W.Kept s) {u : Thread P.Loop τ}
    {l : P.Loop} (hcalls : (s.pc u).calls = some l) {m : P.Mutex} (hm : W.watched m = true) :
    s.owner m ≠ some u := by
  intro howner
  obtain ⟨h, hholds, hsafe⟩ := hkept u
  have hheld : h = some m := (hholds m).mpr ⟨hm, howner⟩
  cases hpc : s.pc u with
  | idle | running frames caller => simp [hpc, Pc.calls] at hcalls
  | calling l' frames caller =>
      rw [hpc] at hsafe
      exact absurd (hsafe.1.symm.trans hheld) (by simp)

/-- With safe code, and tests that come out as expected, no thread is ever blocked in
a call while it holds a watched mutex. -/
theorem always_free_of_follows (hbody : ∀ job, W.Safe none (P.body job))
    (hentry : ∀ e, W.Safe none (P.entry e)) {world : P.World} {es : List (Event P τ)}
    (hfollows : (machine P τ).Meets W.Follows { world } es) :
    (machine P τ).Always (fun s ↦ ∀ u l m, (s.pc u).calls = some l → W.watched m = true →
      s.owner m ≠ some u) { world } es := by
  refine (machine P τ).always_of_meets (I := W.Kept) ?_ ?_ (kept_start world) hfollows
  · exact fun s e t hkept hc hstep ↦ kept_step hbody hentry hkept hc hstep
  · exact fun s hkept u l m hcalls hm ↦ hkept.not_owner_of_calls hcalls hm

end Watch

end RialtoGStreamer.Library.EventLoop
