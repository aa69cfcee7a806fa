import RialtoGStreamer.Library.Machine
import RialtoGStreamer.Library.Table
import RialtoGStreamer.Library.Places
import RialtoGStreamer.MessageQueue.Delivery
import RialtoGStreamer.MediaPlayerClient.CommandOrder
import RialtoGStreamer.MediaPlayerClient.Rendezvous
import RialtoGStreamer.MediaPlayerClient.Agreement
import RialtoGStreamer.MediaPlayerClient.Preroll
import RialtoGStreamer.MediaPlayerClient.StreamNumbers
import RialtoGStreamer.Flush.Bookkeeping
import RialtoGStreamer.NeedData.Answers
import RialtoGStreamer.NeedData.Progress
import RialtoGStreamer.PullMode.Conservation
import RialtoGStreamer.PullMode.Freshness
import RialtoGStreamer.WebAudio.EndOfStream
import RialtoGStreamer.WebAudio.Drain
import RialtoGStreamer.WebAudio.Sessions
import RialtoGStreamer.WebAudio.Streaming
import RialtoGStreamer.MediaPlayerManager.Control
import RialtoGStreamer.Sink.HandOver
import RialtoGStreamer.Sink.Registers
import RialtoGStreamer.Properties.Delivery
import RialtoGStreamer.Teardown.Safety
import RialtoGStreamer.Locks.Cycle
import RialtoGStreamer.Flush.Failure
import RialtoGStreamer.Flush.EndOfStream
import RialtoGStreamer.WebAudio.Progress
import RialtoGStreamer.WebAudio.Lifecycle
import RialtoGStreamer.PullMode.ServerFlush
import RialtoGStreamer.PullMode.References
import RialtoGStreamer.PullMode.Sleeping
import RialtoGStreamer.MediaPlayerClient.Refusal
import RialtoGStreamer.MessageQueue.Stops
import RialtoGStreamer.Flush.WakeUps
import RialtoGStreamer.WebAudio.Format
import RialtoGStreamer.PullMode.Capacity
import RialtoGStreamer.Properties.Rectangle
import RialtoGStreamer.BufferParser.Protection
import RialtoGStreamer.PushMode.DelayedPlay
import RialtoGStreamer.Timer.Cancel
import RialtoGStreamer.MediaSources.Segments
