import Mathlib.Data.List.Basic
import RialtoGStreamer.Library.Machine

/-!
# The web-audio client

`GStreamerWebAudioPlayerClient` queues buffers and pushes their bytes to the
backend, as many whole frames at a time as the backend has room for. All of it
runs in the event loop of the backend queue, except `notifyState`, which the
server calls from a thread of its own: `pushSamples` is one step for each
iteration of its loop. The bytes are of any type; nothing inspects them.
-/

namespace RialtoGStreamer.WebAudio

open Library

/-- `firebolt::rialto::WebAudioPcmConfig`. -/
structure PcmConfig where
  rate : UInt32 := 0
  channels : UInt32 := 0
  sampleSize : UInt32 := 0
  isBigEndian : Bool := false
  isSigned : Bool := false
  isFloat : Bool := false
  deriving DecidableEq

/-- A successful `writeBuffer`: the last answer of `getBufferAvailable`, the
number of frames, and the bytes read from the mapped buffer. -/
structure Write (β : Type*) where
  availableFrames : UInt32
  frameSize : UInt32
  framesToWrite : UInt32
  bytes : List β

/-- A call of the backend's `setEos`: the EOS events that its player had been
delivered, the calls that it had got, the bytes accepted before the last of
these events, and the bytes that had been written or that the backend had
refused. -/
structure EosCall (β : Type*) where
  delivered : ℕ
  earlier : ℕ
  before : List β
  settled : List β

/-- Where the worker is: between two operations, before an iteration of the
loop of `pushSamples`, or behind that loop. -/
inductive WorkerPc where
  | idle
  | pushing
  | pushed
  deriving DecidableEq

/-- `timer` says that the timer is running, `scheduled` counts its expirations
in the backend queue. The rest is the history. `accepted` are the bytes of all
the buffers, `dropped` those the backend refused. The next five are about the
present player: the EOS events it was delivered, the bytes accepted before the
last of them, the calls of `setEos` it got, whether it got one after everything
that is accepted (`ended`), and whether an EOS waits for one (`unforwarded`). -/
structure State (β : Type*) where
  isOpen : Bool := false
  isEos : Bool := false
  dataBuffers : List (List β) := []
  frameSize : UInt32 := 0
  mimeType : String := ""
  config : PcmConfig := {}
  timer : Bool := false
  scheduled : ℕ := 0
  worker : WorkerPc := .idle
  accepted : List β := []
  writes : List (Write β) := []
  dropped : List β := []
  delivered : ℕ := 0
  before : List β := []
  eosCount : ℕ := 0
  ended : Bool := false
  unforwarded : Bool := false
  eosCalls : List (EosCall β) := []

/-- `iterate` is an iteration with the answer of `getBufferAvailable` (`none`
for a failure) and the results of `gst_buffer_map` and `writeBuffer`. -/
inductive Event (β : Type*) where
  | open (mimeType : String) (pcm : PcmConfig) (created : Bool)
  | close
  | notifyNewSample (buf : List β)
  | setEos
  | timerExpired
  | notifyPushSamplesTimerExpired
  | iterate (available : Option UInt32) (mapped written : Bool)
  | finishPush
  | notifyEndOfStream

def maxQueueSize : ℕ := 40

/-- `gst_buffer_resize`: the range of the buffer, if it lies in the buffer. -/
def gstBufferResize {β : Type*} (buffer : List β) (offset size : ℕ) : List β :=
  if offset + size ≤ buffer.length then (buffer.drop offset).take size else buffer

def framesToWrite (frameSize availableFrames : UInt32) (bufferSize : ℕ) : UInt32 :=
  min availableFrames (UInt32.ofNat (bufferSize / frameSize.toNat))

/-- The difference is of type `gsize` and is cut to `uint32_t`. -/
def leftoverData (frameSize availableFrames : UInt32) (bufferSize : ℕ) : UInt32 :=
  (UInt64.ofNat bufferSize - (availableFrames * frameSize).toUInt64).toUInt32

namespace State

variable {β : Type*}

/-- The bytes written so far. -/
def written (s : State β) : List β :=
  (s.writes.map (·.bytes)).flatten

/-- The next player has got nothing yet. -/
def newPlayer (s : State β) : State β :=
  { s with delivered := 0, before := [], eosCount := 0, ended := false, unforwarded := false }

def isNewConfig (s : State β) (mimeType : String) (pcm : PcmConfig) : Bool :=
  mimeType ≠ s.mimeType || mimeType ≠ "audio/x-raw" || pcm ≠ s.config

/-- `open` with the parsed caps; `created` is the result of `createWebAudioBackend`. -/
def openWith (s : State β) (mimeType : String) (pcm : PcmConfig) (created : Bool) : State β :=
  if !s.isOpen || s.isNewConfig mimeType pcm then
    if created then
      { s.newPlayer with
        isOpen := true, frameSize := pcm.sampleSize * pcm.channels / 8
        config := pcm, mimeType := mimeType }
    else { s.newPlayer with isOpen := false }
  else s

def close (s : State β) : State β :=
  { s.newPlayer with timer := false, isOpen := false }

/-- The beginning of `pushSamples`. -/
def pushSamples (s : State β) : State β :=
  if !s.isOpen || s.dataBuffers.isEmpty then s else { s with worker := .pushing }

def notifyNewSample (s : State β) (buf : List β) : State β :=
  { s with
    timer := false, dataBuffers := s.dataBuffers ++ [buf]
    accepted := s.accepted ++ buf, ended := false }.pushSamples

/-- The call of the backend's `setEos`. -/
def callSetEos (s : State β) : State β :=
  { s with
    eosCount := s.eosCount + 1, ended := true, unforwarded := false
    eosCalls := s.eosCalls ++ [⟨s.delivered, s.eosCount, s.before, s.written ++ s.dropped⟩] }

/-- An EOS is delivered to the present player. -/
def deliverEos (s : State β) : State β :=
  { s with
    delivered := s.delivered + 1, before := s.accepted
    unforwarded := s.unforwarded || !s.ended }

def setEos (s : State β) : State β :=
  if s.isOpen then
    if s.isEos then s.deliverEos
    else if s.dataBuffers.isEmpty then { s.deliverEos with isEos := true }.callSetEos
    else { s.deliverEos with isEos := true }.pushSamples
  else s

/-- The front buffer after `frames` of it were written, resized and, when less
than a frame is left of it, joined to the next one. -/
def keepLeftover (s : State β) (availableFrames : UInt32) (buffer : List β)
    (rest : List (List β)) : List (List β) :=
  let frames := framesToWrite s.frameSize availableFrames buffer.length
  let leftover := leftoverData s.frameSize availableFrames buffer.length
  let resized := gstBufferResize buffer (frames * s.frameSize).toNat leftover.toNat
  match rest with
  | next :: rest' =>
      if leftover / s.frameSize = 0 then (resized ++ next) :: rest' else resized :: next :: rest'
  | [] => [resized]

/-- The front buffer against a non-zero answer. A buffer that could not be
mapped or written is discarded. -/
def process (s : State β) (availableFrames : UInt32) (buffer : List β) (rest : List (List β))
    (mapped written : Bool) : State β :=
  let frames := framesToWrite s.frameSize availableFrames buffer.length
  let write : Write β :=
    ⟨availableFrames, s.frameSize, frames, buffer.take (frames.toNat * s.frameSize.toNat)⟩
  if frames > 0 ∧ mapped = false then { s with dataBuffers := rest }
  else if frames > 0 ∧ written = false then
    { s with dataBuffers := rest, dropped := s.dropped ++ buffer }
  else { s with
    writes := if frames > 0 then s.writes ++ [write] else s.writes
    dataBuffers :=
      if (frames * s.frameSize).toNat < buffer.length then
        s.keepLeftover availableFrames buffer rest
      else rest }

/-- The test of the loop. -/
def loop (s : State β) : State β :=
  { s with worker := if s.dataBuffers.isEmpty then .pushed else .pushing }

/-- One iteration. A frame size of zero is a division by zero. -/
def iterate (s : State β) (available : Option UInt32) (mapped written : Bool) :
    Option (State β) :=
  match s.worker, s.dataBuffers with
  | .pushing, buffer :: rest =>
      match available with
      | none => some { s with
          dataBuffers := [], dropped := s.dropped ++ s.dataBuffers.flatten, worker := .pushed }
      | some availableFrames =>
          if availableFrames = 0 then some { s with worker := .pushed }
          else if s.frameSize = 0 then none
          else some (s.process availableFrames buffer rest mapped written).loop
  | _, _ => none

/-- What `pushSamples` does behind its loop. -/
def finishPush (s : State β) : State β :=
  if s.dataBuffers.isEmpty then
    if s.isEos then { s with worker := .idle }.callSetEos else { s with worker := .idle }
  else { s with worker := .idle, timer := true }

def step (s : State β) : Event β → Option (State β)
  | .open mimeType pcm created =>
      if s.worker = .idle then some (s.openWith mimeType pcm created) else none
  | .close => if s.worker = .idle then some s.close else none
  | .notifyNewSample buf =>
      if s.worker = .idle ∧ s.dataBuffers.length < maxQueueSize then some (s.notifyNewSample buf)
      else none
  | .setEos => if s.worker = .idle then some s.setEos else none
  | .timerExpired =>
      if s.timer then some { s with timer := false, scheduled := s.scheduled + 1 } else none
  | .notifyPushSamplesTimerExpired =>
      if s.worker = .idle ∧ 0 < s.scheduled then
        some { s with scheduled := s.scheduled - 1 }.pushSamples
      else none
  | .iterate available mapped written => s.iterate available mapped written
  | .finishPush => if s.worker = .pushed then some s.finishPush else none
  | .notifyEndOfStream => some { s with isEos := false }

end State

/-- One client, from its construction on. -/
def machine (β : Type*) : Machine (State β) (Event β) where
  step := State.step

end RialtoGStreamer.WebAudio
