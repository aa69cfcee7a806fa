import RialtoGStreamer.NeedData.Model

/-!
# The sample queue of a pull-mode sink

The streaming thread fills `m_samples` and flushes clear it, while the puller
of the source runs `PullBufferMessage::handle`. `m_sinkMutex` covers each
operation on the delegate, but not the iteration of the puller, which obtains
the front sample, hands it over and pops in separate sections. The samples are
numbered in the order in which `handleBuffer` queued them.
-/

namespace RialtoGStreamer.PullMode

open Library NeedData

inductive AddSegmentStatus where
  | ok
  | noSpace
  | error
  deriving DecidableEq

/-- The part of `GstFlowReturn` that `handleBuffer` uses. -/
inductive FlowReturn where
  | ok
  | flushing
  deriving DecidableEq

/-- Why the puller pops: the sample was given to `addSegment`, could not be
mapped, or could not be parsed. -/
inductive Outcome where
  | given
  | unmapped
  | unparsed
  deriving DecidableEq

/-- How a sample left the queue: cleared when `arrived` samples had been queued
so far, or popped in the iteration that obtained `obtained`. -/
inductive Cause where
  | cleared (arrived : ℕ)
  | popped (obtained : ℕ) (outcome : Outcome)
  deriving DecidableEq

structure Departure where
  sample : ℕ
  cause : Cause
  deriving DecidableEq

/-- The local variables of `PullBufferMessage::handle`. -/
structure Pull where
  frameCount : ℕ
  frame : ℕ := 0
  addedSegments : ℕ := 0
  isEos : Bool := false
  deriving DecidableEq

/-- Where the puller is: before the test of the loop, before `getFrontSample`,
before `isEos`, at one of the three uses of the sample it obtained, before
`popSample`, or past the loop. -/
inductive PullerPc where
  | idle
  | loop (p : Pull)
  | front (p : Pull)
  | eos (p : Pull)
  | map (p : Pull) (sample : ℕ)
  | parse (p : Pull) (sample : ℕ)
  | add (p : Pull) (sample : ℕ)
  | pop (p : Pull) (sample : ℕ) (outcome : Outcome)
  | done (p : Pull)
  deriving DecidableEq

/-- `waiting` says that `handleBuffer` waits for space. The last five fields are
the history: how many samples were queued, which of them `addSegment` took, how
the others left, whether the queue was cleared since the last `getFrontSample`,
and the answers to the pulls. -/
structure State where
  samples : List ℕ := []
  isEos : Bool := false
  segmentSet : Bool := false
  isSinkFlushOngoing : Bool := false
  isServerFlushOngoing : Bool := false
  isTimeResetOngoing : Bool := false
  waiting : Bool := false
  puller : PullerPc := .idle
  arrived : ℕ := 0
  given : List ℕ := []
  departures : List Departure := []
  overtaken : Bool := false
  answers : List MediaSourceStatus := []
  deriving DecidableEq

inductive Event where
  | handleBuffer (created : Bool)
  | wake (created : Bool)
  | startFlushing
  | flushServer
  | stopFlushing
  | handleFlushCompleted
  | setEos
  | setSegment
  | readyToPaused
  | pausedToReady
  | pullBuffer (frameCount : ℕ)
  | isReadyToSendData
  | getFrontSample
  | isEos
  | map (result : Bool)
  | parseBuffer (result : Bool)
  | addSegment (status : AddSegmentStatus)
  | popSample
  | postHaveData

def maxInternalBuffersQueueSize : ℕ := 24

def Pull.status (p : Pull) : MediaSourceStatus :=
  if p.isEos then .eos else if p.addedSegments = 0 then .noAvailableSamples else .ok

def Pull.next (p : Pull) : Pull :=
  { p with frame := p.frame + 1 }

/-- Back to the loop from `popSample`: `continue`, or count the segment. -/
def Pull.afterPop (p : Pull) : Outcome → Pull
  | .given => { p.next with addedSegments := p.addedSegments + 1 }
  | .unmapped | .unparsed => p.next

namespace State

def clearBuffersUnlocked (s : State) : State :=
  { s with
    isSinkFlushOngoing := true
    samples := []
    departures := s.departures ++ s.samples.map fun k ↦ ⟨k, .cleared s.arrived⟩
    overtaken := true }

/-- The rest of `handleBuffer` once there is space; `created` says whether
`gst_sample_new` returned a sample. -/
def queueBuffer (s : State) (created : Bool) : FlowReturn × State :=
  if s.isSinkFlushOngoing then (.flushing, s)
  else if created then
    (.ok, { s with samples := s.samples ++ [s.arrived], arrived := s.arrived + 1 })
  else (.ok, s)

/-- The section of `startFlushing`; `waitIfRequired` before it only delays it. -/
def startFlushing (s : State) : State :=
  if s.isSinkFlushOngoing then s
  else
    { s with isEos := false, isSinkFlushOngoing := true, segmentSet := false }.clearBuffersUnlocked

def flushServer (s : State) : State :=
  { s with isServerFlushOngoing := true, isTimeResetOngoing := true }

def stopFlushing (s : State) : State :=
  { s with isSinkFlushOngoing := false }

def handleFlushCompleted (s : State) : State :=
  { s with isServerFlushOngoing := false, isTimeResetOngoing := false }

def isReadyToSendData (s : State) : Bool :=
  s.isEos || s.segmentSet

def getFrontSample (s : State) : Option ℕ :=
  if s.isServerFlushOngoing then none else s.samples.head?

def isEosReached (s : State) : Bool :=
  s.samples.isEmpty && s.isEos

/-- `popSample` by the iteration that obtained `obtained`. -/
def popSample (s : State) (obtained : ℕ) (outcome : Outcome) : State :=
  match s.samples with
  | [] => s
  | k :: samples => { s with
      samples := samples
      departures := s.departures ++ [⟨k, .popped obtained outcome⟩] }

/-- What the puller does with the status of `addSegment`. -/
def addSegment (s : State) (p : Pull) (k : ℕ) : AddSegmentStatus → State
  | .noSpace => { s with puller := .done p }
  | .ok | .error => { s with puller := .pop p k .given, given := s.given ++ [k] }

def pull (s : State) : PullerPc → Event → Option State
  | .idle, .pullBuffer frameCount => some { s with puller := .loop { frameCount } }
  | .loop p, .isReadyToSendData =>
      if p.frame < p.frameCount ∧ s.isReadyToSendData then some { s with puller := .front p }
      else some { s with puller := .done p }
  | .front p, .getFrontSample =>
      match s.getFrontSample with
      | some k => some { s with puller := .map p k, overtaken := false }
      | none => some { s with puller := .eos p }
  | .eos p, .isEos => some { s with puller := .done { p with isEos := s.isEosReached } }
  | .map p k, .map result =>
      some { s with puller := if result then .parse p k else .pop p k .unmapped }
  | .parse p k, .parseBuffer result =>
      some { s with puller := if result then .add p k else .pop p k .unparsed }
  | .add p k, .addSegment status => some (s.addSegment p k status)
  | .pop p k outcome, .popSample =>
      some { s.popSample k outcome with puller := .loop (p.afterPop outcome) }
  | .done p, .postHaveData =>
      some { s with puller := .idle, answers := s.answers ++ [p.status] }
  | _, _ => none

/-- A step of one of the threads. The wait of `handleBuffer` has no predicate,
and ends at any time. -/
def step (s : State) : Event → Option State
  | .handleBuffer created =>
      if s.waiting then none
      else if s.samples.length ≥ maxInternalBuffersQueueSize then some { s with waiting := true }
      else some (s.queueBuffer created).2
  | .wake created =>
      if s.waiting then some ({ s with waiting := false }.queueBuffer created).2 else none
  | .startFlushing => some s.startFlushing
  | .flushServer => some s.flushServer
  | .stopFlushing => some s.stopFlushing
  | .handleFlushCompleted => some s.handleFlushCompleted
  | .setEos => some { s with isEos := true }
  | .setSegment => some { s with segmentSet := true }
  | .readyToPaused => some { s with isSinkFlushOngoing := false }
  | .pausedToReady => some s.clearBuffersUnlocked
  | e => s.pull s.puller e

end State

/-- One delegate, from its construction on. -/
def machine : Machine State Event where
  step := State.step

end RialtoGStreamer.PullMode
