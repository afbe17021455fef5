import PadPlay.Device.Playback
import PadPlay.Lib.Machine
import PadPlay.Lib.Newest
import PadPlay.Transport.Sender

/-!
# A streaming session (`session::run`, `VideoStream.session`)

The threads of a session and of the device it streams to, as one machine: the two drain threads, the
pacing loop, the acknowledgement thread, and the device's own threads. One action is one step of one
thread on the state it shares with the others, so a run is an interleaving. Packets are numbered in
the order in which their encoder puts them out. GStreamer's queues are parameters: of them is known
what the properties they are made with say.
-/

namespace PadPlay.Daemon.Streaming

open PadPlay.Lib PadPlay.Protocol PadPlay.Transport PadPlay.Device PadPlay.Device.VideoStream

/-! ## State -/

structure EncodedPacket where
  data : List UInt8
  ptsNs : UInt64
  keyframe : Bool
  deriving DecidableEq, Repr

def EncodedPacket.frame (p : EncodedPacket) : Frame :=
  (SendCall.video p.data p.ptsNs p.keyframe).frame

inductive DrainPhase where
  | checking
  | pulling
  | holding (packet : Nat)
  | stopped
  deriving DecidableEq, Repr

/-- An encoder's `appsink` and the thread that moves packets from it into a channel. -/
structure Drain where
  /-- how many packets the encoder has put out -/
  encoded : Nat
  appsink : List Nat
  phase : DrainPhase
  channel : List Nat
  /-- log of what `pull_packet` returned -/
  pulled : List Nat
  deriving DecidableEq, Repr

inductive Pacing where
  | checking
  | capturing
  | audio
  | sendingAudio (packet : Nat)
  | video
  | sendingVideo (packet : Nat)
  | sleeping
  | ended
  deriving DecidableEq, Repr

/-- An entry of `sent_at`: an instant, and the frame it is the send instant of. -/
structure SentAt where
  frame : Nat
  instant : Nat
  deriving DecidableEq, Repr

/-- An entry of `round_trips`: the elapsed time, the entry of `sent_at` it was measured from, and
the frame whose acknowledgement was read last. -/
structure RoundTrip where
  sent : SentAt
  acked : Option Nat
  elapsed : Nat
  deriving DecidableEq, Repr

inductive WireFrame where
  | video (packet : Nat)
  | audio (packet : Nat)
  deriving DecidableEq, Repr

inductive ReaderPhase where
  | checking
  | reading
  | stopped
  deriving DecidableEq, Repr

/-- The acknowledgement thread: how much of its buffer is filled, and a log of all it read. -/
structure AckReader where
  phase : ReaderPhase
  filled : Nat
  received : List AckByte
  deriving DecidableEq, Repr

structure Session where
  clock : Nat
  video : Drain
  audio : Drain
  pacing : Pacing
  running : Bool
  /-- how many video sends have begun -/
  begun : Nat
  sentAt : List SentAt
  /-- log of the frames whose send went through -/
  written : List WireFrame
  /-- whole frames on their way to the device -/
  toDevice : List WireFrame
  device : Receiver
  /-- acknowledgement bytes on their way to the host -/
  toHost : List AckByte
  reader : AckReader
  roundTrips : List RoundTrip
  deriving DecidableEq, Repr

/-! ## GStreamer's queues -/

/-- The properties of an `appsink`, or `appsrc`, that say what becomes of a buffer when it is
full. -/
structure SinkConfig where
  maxBuffers : Nat
  drop : Bool

def videoSink : SinkConfig := ⟨4, false⟩
def audioSink : SinkConfig := ⟨8, true⟩

/-- The video encoder's `appsrc`; `leaky-type` downstream leaks the oldest buffer. -/
def videoSrc : SinkConfig := ⟨1, true⟩

/-- A queue that does what its properties say: a full one drops its oldest buffer, or else whoever
pushes waits. -/
abbrev SinkConfig.Queue (config : SinkConfig) : Type :=
  BoundedQueue Nat config.maxBuffers config.drop

structure Gst where
  video : videoSink.Queue
  audio : audioSink.Queue
  appsrc : videoSrc.Queue
  /-- how many frames there is room for between the video encoder's `appsrc` and its `appsink` -/
  room : Nat

def Gst.plain (room : Nat) : Gst := ⟨.plain .., .plain .., .plain .., room⟩

/-! ## Drain threads -/

inductive DrainAction where
  /-- the encoder puts out a packet -/
  | encode
  | check
  | pull
  | timeout
  | fail
  | send
  deriving DecidableEq, Repr

def Drain.step {config : SinkConfig} (sink : config.Queue) (running : Bool) (d : Drain) :
    DrainAction → Option Drain
  | .encode =>
    (sink.push d.appsink d.encoded).map fun appsink =>
      { d with encoded := d.encoded + 1, appsink }
  | .check =>
    match d.phase with
    | .checking => some { d with phase := if running then .pulling else .stopped }
    | _ => none
  | .pull =>
    match d.phase, d.appsink with
    | .pulling, packet :: appsink =>
      some { d with appsink, phase := .holding packet, pulled := d.pulled ++ [packet] }
    | _, _ => none
  | .timeout =>
    match d.phase with
    | .pulling => some { d with phase := .checking }
    | _ => none
  | .fail =>
    match d.phase with
    | .pulling => some { d with phase := .stopped }
    | _ => none
  | .send =>
    match d.phase with
    | .holding packet => some { d with channel := d.channel ++ [packet], phase := .checking }
    | _ => none

/-! ## The pacing loop -/

inductive PacingAction where
  | check (shutdown : Bool)
  | capture (ok : Bool)
  /-- `try_recv` on the channel of the phase -/
  | receive
  | sent
  /-- the send fails, though all the device needs of the frame may have gone out -/
  | sendFails (arrives : Bool)
  | sleep
  deriving DecidableEq, Repr

def Session.finish (s : Session) : Session := { s with pacing := .ended, running := false }

def Session.pace (s : Session) : PacingAction → Option Session
  | .check shutdown =>
    match s.pacing with
    | .checking => some (if shutdown then s.finish else { s with pacing := .capturing })
    | _ => none
  | .capture ok =>
    match s.pacing with
    | .capturing => some (if ok then { s with pacing := .audio } else s.finish)
    | _ => none
  | .receive =>
    match s.pacing with
    | .audio =>
      match s.audio.channel with
      | [] => some { s with pacing := .video }
      | packet :: channel =>
        some { s with audio := { s.audio with channel }, pacing := .sendingAudio packet }
    | .video =>
      match s.video.channel with
      | [] => some { s with pacing := .sleeping }
      | packet :: channel =>
        some { s with
          video := { s.video with channel }, pacing := .sendingVideo packet
          sentAt := s.sentAt ++ [⟨packet, s.clock⟩], begun := s.begun + 1 }
    | _ => none
  | .sent =>
    match s.pacing with
    | .sendingAudio packet =>
      some { s with
        pacing := .audio, written := s.written ++ [.audio packet]
        toDevice := s.toDevice ++ [.audio packet] }
    | .sendingVideo packet =>
      some { s with
        pacing := .video, written := s.written ++ [.video packet]
        toDevice := s.toDevice ++ [.video packet] }
    | _ => none
  | .sendFails arrives =>
    match s.pacing with
    | .sendingAudio packet =>
      some { s.finish with toDevice := s.toDevice ++ if arrives then [.audio packet] else [] }
    | .sendingVideo packet =>
      some { s.finish with toDevice := s.toDevice ++ if arrives then [.video packet] else [] }
    | _ => none
  | .sleep =>
    match s.pacing with
    | .sleeping => some { s with pacing := .checking }
    | _ => none

/-! ## The acknowledgement thread -/

inductive ReaderAction where
  | check
  /-- `read` returns `n` bytes -/
  | read (n : Nat)
  | timeout
  | close
  deriving DecidableEq, Repr

/-- A complete acknowledgement has been read: measure from the oldest entry of `sent_at`. -/
def Session.completeAck (s : Session) (acked : Option Nat) : Session :=
  match s.sentAt with
  | [] => s
  | sent :: sentAt =>
    { s with sentAt, roundTrips := s.roundTrips ++ [⟨sent, acked, s.clock - sent.instant⟩] }

/-- `read` into the free part of the buffer, which is never empty. -/
def Session.readAcks (s : Session) : ReaderAction → Option Session
  | .check =>
    match s.reader.phase with
    | .checking =>
      some { s with reader := { s.reader with phase := if s.running then .reading else .stopped } }
    | _ => none
  | .read n =>
    match s.reader.phase with
    | .reading =>
      if 0 < n ∧ n ≤ s.toHost.length ∧ n ≤ ACK_LEN - s.reader.filled then
        let bytes := s.toHost.take n
        let received := s.reader.received ++ bytes
        let filled := s.reader.filled + n
        let s := { s with toHost := s.toHost.drop n }
        if filled = ACK_LEN then
          some ({ s with reader := ⟨.checking, 0, received⟩ }.completeAck
            (bytes.getLast?.map AckByte.frame))
        else some { s with reader := ⟨.checking, filled, received⟩ }
      else none
    | _ => none
  | .timeout =>
    match s.reader.phase with
    | .reading => some { s with reader := { s.reader with phase := .checking } }
    | _ => none
  | .close =>
    match s.reader.phase with
    | .reading => some { s with reader := { s.reader with phase := .stopped } }
    | _ => none

/-! ## The device -/

inductive DeviceAction where
  | inputAvailable (index : Int32)
  | surface (valid : Bool)
  /-- the loop obtains the next frame; what the codec or the audio sink does with it -/
  | receive (buffer : BufferAnswer) (queueThrows escapes : Bool)
  | output
  /-- the writer puts `k` bytes of an acknowledgement on the wire -/
  | writeAck (k : Nat)
  | leave
  | finish
  deriving DecidableEq, Repr

def Session.deviceStep (packets : Nat → EncodedPacket) (s : Session) :
    DeviceAction → Option Session
  | .inputAvailable index =>
    (s.device.onInputBufferAvailable index).map fun device => { s with device }
  | .surface valid => some { s with device := s.device.setSurface valid }
  | .receive buffer queueThrows escapes =>
    if s.device.stage = .streaming then
      match s.toDevice with
      | [] => none
      | .video packet :: toDevice =>
        let device := s.device.onVideoFrame packet (packets packet).frame buffer queueThrows
        some { s with toDevice, device }
      | .audio _ :: toDevice => some { s with toDevice, device := s.device.onAudioFrame escapes }
    else none
  | .output => s.device.onOutputBufferAvailable.map fun device => { s with device }
  | .writeAck k =>
    (s.device.writeAck k).map fun (bytes, device) => { s with toHost := s.toHost ++ bytes, device }
  | .leave => s.device.leave.map fun device => { s with device }
  | .finish => s.device.finish.map fun device => { s with device }

/-! ## The machine -/

inductive Action where
  | wait (time : Nat)
  | video (a : DrainAction)
  | audio (a : DrainAction)
  | pacing (a : PacingAction)
  | reader (a : ReaderAction)
  | device (a : DeviceAction)
  deriving DecidableEq, Repr

def Drain.init : Drain := ⟨0, [], .checking, [], []⟩

def Session.init : Session where
  clock := 0
  video := .init
  audio := .init
  pacing := .checking
  running := true
  begun := 0
  sentAt := []
  written := []
  toDevice := []
  device := .init true
  toHost := []
  reader := ⟨.checking, 0, []⟩
  roundTrips := []

def streaming (gst : Gst) (packets : Nat → EncodedPacket) : Machine Session Action where
  init := .init
  step
    | s, .wait time => some { s with clock := s.clock + time }
    | s, .video a => (s.video.step gst.video s.running a).map fun video => { s with video }
    | s, .audio a => (s.audio.step gst.audio s.running a).map fun audio => { s with audio }
    | s, .pacing a => s.pace a
    | s, .reader a => s.readAcks a
    | s, .device a => s.deviceStep packets a

/-! ## The way of one frame -/

def sendOne : List Action :=
  [.video .encode, .video .check, .video .pull, .video .send, .pacing (.check false),
    .pacing (.capture true), .pacing .receive, .pacing .receive, .pacing .sent, .pacing .receive,
    .pacing .sleep, .device (.receive (.buffer 4096) false false)]

/-- The frame finds a free input buffer when it arrives. -/
def decodeOne (index : Int32) : List Action := .device (.inputAvailable index) :: sendOne

/-- The decoder puts a frame out, with a surface attached or not. -/
def showOne (surface : Bool) : List Action := [.device (.surface surface), .device .output]

/-- An acknowledgement is written, and read in two pieces. -/
def ackOne : List Action :=
  [.device (.writeAck 8), .reader .check, .reader (.read 3), .wait 5, .reader .check,
    .reader (.read 5)]

/-- A keyframe, then one frame every 16 milliseconds. -/
def steadyPackets (k : Nat) : EncodedPacket := ⟨[0, 0, 0, 1], UInt64.ofNat (k * 16000000), k = 0⟩

end PadPlay.Daemon.Streaming
