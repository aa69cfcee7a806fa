import RialtoGStreamer.Library.Machine

/-!
# The timer

The thread of a timer waits for the timeout or for the end of `m_active`, calls
back behind the lock, and does so again if the timer is periodic. Nobody else
takes the mutex: `cancel` clears the flag and notifies at any time, also between
the test of the predicate and the wait, where the notification is lost, and the
callback may cancel its own timer. The owner is one thread.
-/

namespace RialtoGStreamer.Timer

open Library

inductive TimerType where
  | oneShot
  | periodic
  deriving DecidableEq

/-- Where the thread is: before the test of the predicate of `wait_for`, between
the test and the wait, in the wait, before the test behind a timeout, before the
second look at the flag, past the lock, in the callback, before the test of the
loop, before `m_active = false`, or past its end. -/
inductive ThreadPc where
  | testing
  | entering
  | blocked
  | expired
  | confirming
  | decided (shouldCallback : Bool)
  | calling
  | looping
  | ending
  | exited
  deriving DecidableEq

/-- Where the owner is in `doCancel`; behind `join` the thread is not joinable. -/
inductive OwnerPc where
  | free
  | stored
  | joining
  | joined
  deriving DecidableEq

/-- `callable` says that there is a callback. The last two fields are the history:
how many waits timed out, and how many callbacks began. -/
structure State where
  timerType : TimerType
  callable : Bool
  active : Bool := true
  thread : ThreadPc := .testing
  owner : OwnerPc := .free
  expiries : ℕ := 0
  begun : ℕ := 0
  deriving DecidableEq

inductive Event where
  | test
  | block
  | wake
  | expire
  | confirm
  | decide
  | unlock
  | returnCallback
  | selfCancel
  | loop
  | finish
  | cancel
  | notify
  | join
  deriving DecidableEq

/-- The steps that the thread takes by itself. -/
def Event.isThread : Event → Bool
  | .test | .block | .wake | .expire | .confirm | .decide | .unlock | .returnCallback | .loop
  | .finish => true
  | .selfCancel | .cancel | .notify | .join => false

namespace State

def isActive (s : State) : Bool :=
  s.active

/-- A step of the thread or of its callback. -/
def advance (s : State) : ThreadPc → Event → Option State
  | .testing, .test =>
      some { s with thread := if s.active then .entering else .decided false }
  | .entering, .block => some { s with thread := .blocked }
  | .blocked, .wake => some { s with thread := .testing }
  | .blocked, .expire => some { s with thread := .expired, expiries := s.expiries + 1 }
  | .expired, .confirm =>
      some { s with thread := if s.active then .confirming else .decided false }
  | .confirming, .decide => some { s with thread := .decided (s.active && s.callable) }
  | .decided true, .unlock =>
      some { s with thread := .calling, begun := s.begun + 1 }
  | .decided false, .unlock => some { s with thread := .looping }
  | .calling, .returnCallback => some { s with thread := .looping }
  | .calling, .selfCancel => some { s with active := false }
  | .looping, .loop =>
      some { s with
        thread := if s.timerType = .periodic ∧ s.active = true then .testing else .ending }
  | .ending, .finish => some { s with thread := .exited, active := false }
  | _, _ => none

/-- A step of the owner; the notification reaches the thread in its wait. -/
def own (s : State) : OwnerPc → Event → Option State
  | .free, .cancel => some { s with active := false, owner := .stored }
  | .joined, .cancel => some { s with active := false }
  | .stored, .notify =>
      some { s with
        owner := .joining, thread := if s.thread = .blocked then .testing else s.thread }
  | .joining, .join => if s.thread = .exited then some { s with owner := .joined } else none
  | _, _ => none

def step (s : State) : Event → Option State
  | .cancel => s.own s.owner .cancel
  | .notify => s.own s.owner .notify
  | .join => s.own s.owner .join
  | e => s.advance s.thread e

end State

def machine : Machine State Event where
  step := State.step

end RialtoGStreamer.Timer
