import RialtoGStreamer.Library.Machine
import RialtoGStreamer.Library.Table

/-!
# The managers of the media player clients

Each sink has a `MediaPlayerManager`, and the managers of one parent bin share
a client through a static map. Every step is one section under
`m_mediaPlayerClientsMutex` or one test of a weak pointer: a client is alive as
long as the map or somebody outside holds it. A parent is an address, and 0 is
the null pointer.
-/

namespace RialtoGStreamer.MediaPlayerManager

open Library

abbrev Parent := ℕ

/-- `MediaPlayerClientInfo`; a client is the number of its construction, a
controller the index of a manager. -/
structure ClientInfo where
  client : ℕ
  controller : Option ℕ
  refCount : UInt32
  deriving DecidableEq

/-- What follows `releaseMediaPlayerClient`: the end of the operation, the
second half of `attachMediaPlayerClient`, or the end of the manager. -/
inductive After where
  | idle
  | create (gstBinParent : Parent)
  | destroyed
  deriving DecidableEq

/-- Where the thread of a manager is: before the first section of
`attachMediaPlayerClient`, before the test of the copies it took, before
`createMediaPlayerClient` or the section behind it, before the section of
`hasControl`, before the test or the section of `releaseMediaPlayerClient`. -/
inductive ManagerPc where
  | idle
  | attach (gstBinParent : Parent)
  | attaching (gstBinParent : Parent) (clientCopy : Option ℕ) (currentParent : Parent)
  | create (gstBinParent : Parent)
  | verify
  | control
  | release (after : After)
  | releasing (after : After)
  | destroyed
  deriving DecidableEq

def After.pc : After → ManagerPc
  | .idle => .idle
  | .create gstBinParent => .create gstBinParent
  | .destroyed => .destroyed

/-- A `MediaPlayerManager`; `client` is a weak pointer. -/
structure Manager where
  client : Option ℕ := none
  currentGstBinParent : Parent := 0
  pc : ManagerPc := .idle
  deriving DecidableEq

inductive ClientCall where
  | stop
  | stopStreaming
  | destroyClientBackend
  deriving DecidableEq

/-- A call of `hasControl` that returned true, after so many changes of the
controller of the parent. -/
structure Grant where
  parent : Parent
  epoch : ℕ
  manager : ℕ
  deriving DecidableEq

/-- `clients` counts the constructed clients, `held` are the shared pointers
outside. The history: the clients that were stored in the map, the calls that
took effect on a client, the changes of the controllers, and the grants. -/
structure State where
  infos : Table Parent ClientInfo := ∅
  managers : List Manager := []
  clients : ℕ := 0
  held : List ℕ := []
  stored : List ℕ := []
  calls : List (ClientCall × ℕ) := []
  changes : Parent → ℕ := fun _ ↦ 0
  grants : List Grant := []

/-- `advance` takes the next step of a manager's thread, with the result of
`createBackend` in case it constructs a client. -/
inductive Event where
  | construct
  | attachMediaPlayerClient (i : ℕ) (gstBinParent : Parent)
  | hasControl (i : ℕ)
  | releaseMediaPlayerClient (i : ℕ)
  | destruct (i : ℕ)
  | advance (i : ℕ) (backendCreated : Bool)
  | getMediaPlayerClient (i : ℕ)
  | drop (client : ℕ)
  | destructClient (client : ℕ)

/-- `acquireControl` of manager `i`, and its result. -/
def acquireControl (info : ClientInfo) (i : ℕ) : Bool × ClientInfo :=
  if info.controller = none then (true, { info with controller := some i }) else (false, info)

namespace State

def isAlive (s : State) (client : ℕ) : Bool :=
  s.infos.entries.any (fun entry ↦ entry.2.client = client) || client ∈ s.held

/-- Whether `lock` of a weak pointer returns a client. -/
def lock (s : State) (client : Option ℕ) : Bool :=
  client.any s.isAlive

def setManager (s : State) (i : ℕ) (m : Manager) : State :=
  { s with managers := s.managers.set i m }

/-- Write or erase the entry of a parent; a change of the controller is counted. -/
def setInfo (s : State) (p : Parent) (info : Option ClientInfo) : State :=
  { s with
    infos := match info with
      | some info => s.infos.insert p info
      | none => s.infos.erase p
    changes :=
      if (s.infos.lookup p).map (·.controller) = info.map (·.controller) then s.changes
      else Function.update s.changes p (s.changes p + 1) }

def callClient (s : State) (call : ClientCall) (client : ℕ) : State :=
  { s with calls := s.calls ++ [(call, client)] }

/-- `stopStreaming` of a client takes effect once. -/
def stopStreaming (s : State) (client : ℕ) : State :=
  if (.stopStreaming, client) ∈ s.calls then s else s.callClient .stopStreaming client

def grant (s : State) (p : Parent) (i : ℕ) : State :=
  { s with grants := s.grants ++ [⟨p, s.changes p, i⟩] }

/-- `createMediaPlayerClient` of manager `i`. A client without a backend is
dropped at once. -/
def createMediaPlayerClient (s : State) (i : ℕ) (m : Manager) (p : Parent)
    (backendCreated : Bool) : State :=
  match s.infos.lookup p with
  | some info =>
      (s.setInfo p (some { info with refCount := info.refCount + 1 })).setManager i
        { client := some info.client, currentGstBinParent := p, pc := .verify }
  | none =>
      let created := { s with clients := s.clients + 1 }
      if backendCreated then
        ({ created with stored := s.stored ++ [s.clients] }.setInfo p
          (some ⟨s.clients, some i, 1⟩)).setManager i
          { client := some s.clients, currentGstBinParent := p, pc := .verify }
      else created.setManager i { m with pc := .verify }

/-- The section of `releaseMediaPlayerClient` of manager `i`. -/
def releaseMediaPlayerClient (s : State) (i : ℕ) (m : Manager) (after : After) : State :=
  match s.infos.lookup m.currentGstBinParent with
  | some info =>
      let refCount := info.refCount - 1
      let released : Manager := { client := none, currentGstBinParent := 0, pc := after.pc }
      if refCount = 0 then
        ((((s.callClient .stop info.client).stopStreaming info.client).callClient
          .destroyClientBackend info.client).setInfo m.currentGstBinParent none).setManager i
          released
      else
        let controller := if info.controller = some i then none else info.controller
        (s.setInfo m.currentGstBinParent
          (some { info with refCount := refCount, controller := controller })).setManager i released
  | none => s.setManager i { m with pc := after.pc }

/-- The section of `hasControl` of manager `i`. -/
def hasControl (s : State) (i : ℕ) (m : Manager) : State :=
  let p := m.currentGstBinParent
  match s.infos.lookup p with
  | some info =>
      if info.controller = some i then s.grant p i
      else
        match acquireControl info i with
        | (true, info) => (s.setInfo p (some info)).grant p i
        | (false, _) => s
  | none => s

/-- The next step of the thread of manager `i`. -/
def advance (s : State) (i : ℕ) (m : Manager) (backendCreated : Bool) : Option State :=
  match m.pc with
  | .idle | .destroyed => none
  | .attach p =>
      some (s.setManager i { m with pc := .attaching p m.client m.currentGstBinParent })
  | .attaching p clientCopy currentParent =>
      let pc : ManagerPc :=
        if !s.lock clientCopy then .create p
        else if p ≠ currentParent then .release (.create p)
        else .verify
      some (s.setManager i { m with pc := pc })
  | .create p => some (s.createMediaPlayerClient i m p backendCreated)
  | .verify => some (s.setManager i { m with pc := .idle })
  | .control => some ((s.hasControl i m).setManager i { m with pc := .idle })
  | .release after =>
      some (s.setManager i
        { m with pc := if s.lock m.client then .releasing after else after.pc })
  | .releasing after => some (s.releaseMediaPlayerClient i m after)

/-- The thread of manager `i` begins an operation. -/
def begin (s : State) (i : ℕ) (pc : Manager → ManagerPc) : Option State :=
  match s.managers[i]? with
  | some m => if m.pc = .idle then some (s.setManager i { m with pc := pc m }) else none
  | none => none

def step (s : State) : Event → Option State
  | .construct => some { s with managers := s.managers ++ [{}] }
  | .attachMediaPlayerClient i p => s.begin i fun _ ↦ .attach p
  | .hasControl i => s.begin i fun m ↦ if s.lock m.client then .control else .idle
  | .releaseMediaPlayerClient i => s.begin i fun _ ↦ .release .idle
  | .destruct i => s.begin i fun _ ↦ .release .destroyed
  | .advance i backendCreated =>
      match s.managers[i]? with
      | some m => s.advance i m backendCreated
      | none => none
  | .getMediaPlayerClient i =>
      match s.managers[i]? with
      | some ⟨some client, _, .idle⟩ =>
          if s.isAlive client then some { s with held := client :: s.held } else none
      | _ => none
  | .drop client =>
      if client ∈ s.held then some { s with held := s.held.erase client } else none
  | .destructClient client =>
      if client < s.clients ∧ s.isAlive client = false then some (s.stopStreaming client) else none

end State

/-- Any number of managers and parents. -/
def machine : Machine State Event where
  step := State.step

end RialtoGStreamer.MediaPlayerManager
