import PadPlay.Device.Reading
import PadPlay.Device.VideoStream

/-!
# Decoding and acknowledging (`VideoStream.kt`)

The device's threads during one session, as steps on the queues they share: the loop that takes
frames off the connection, the decoder's callbacks, the user's surface coming and going, and the
acknowledgement writer. Frames carry the number of the packet they were sent for, which no step
looks at.
-/

namespace PadPlay.Device.VideoStream

open PadPlay.Lib PadPlay.Device.DataInput PadPlay.Device.Protocol

/-! ## Queues -/

structure DecoderInput where
  frame : Nat
  unit : AccessUnit
  deriving DecidableEq, Repr

structure Ack where
  frame : Nat
  ptsNs : Int64
  deriving DecidableEq, Repr

/-- A byte of an acknowledgement on its way to the host. -/
structure AckByte where
  frame : Nat
  byte : UInt8
  deriving DecidableEq, Repr

/-- What became of a video frame that arrived: whether it was queued into the decoder. -/
structure Demuxed where
  frame : Nat
  queued : Bool
  deriving DecidableEq, Repr

structure Shown where
  frame : Nat
  rendered : Bool
  deriving DecidableEq, Repr

/-- How far the session is: in its loop, past it, or past `codec.release`. -/
inductive Stage where
  | streaming
  | closing
  | closed
  deriving DecidableEq, Repr

/-- The device during a session, with logs of what became of each video frame. -/
structure Receiver where
  stage : Stage
  freeInputs : List Int32
  /-- a valid surface is attached -/
  surface : Bool
  demuxed : List Demuxed
  decoding : List DecoderInput
  shown : List Shown
  pendingAcks : List Ack
  /-- the acknowledgement writer has not stopped -/
  ackWriter : Bool
  deriving DecidableEq, Repr

def encodeAck (ptsNs : Int64) : List UInt8 :=
  ([56, 48, 40, 32, 24, 16, 8, 0] : List UInt64).map fun shift =>
    (ptsNs.toUInt64 >>> shift).toUInt8

def Ack.bytes (a : Ack) : List AckByte := (encodeAck a.ptsNs).map fun byte => ⟨a.frame, byte⟩

theorem Ack.bytes_frames (a : Ack) :
    a.bytes.map AckByte.frame = List.replicate PadPlay.Protocol.ACK_LEN a.frame := rfl

/-! ## Steps -/

namespace Receiver

def init (surface : Bool) : Receiver := ⟨.streaming, [], surface, [], [], [], [], true⟩

def onInputBufferAvailable (d : Receiver) (index : Int32) : Option Receiver :=
  if d.stage = .closed then none else some { d with freeInputs := d.freeInputs ++ [index] }

def setSurface (d : Receiver) (valid : Bool) : Receiver := { d with surface := valid }

/-- The loop is over: an exception, the end of the stream, or `stop`. -/
def leave (d : Receiver) : Option Receiver :=
  if d.stage = .streaming then some { d with stage := .closing } else none

/-- The `finally` block: the codec is released and the writer interrupted. -/
def finish (d : Receiver) : Option Receiver :=
  if d.stage = .closing then some { d with stage := .closed, ackWriter := false } else none

/-- A video frame arrives. A length the header reader rejects leaves the loop. Otherwise
`freeInputs.poll` returns the next index, or `null` after the timeout, and the frame is queued or
dropped, or an exception leaves the loop. -/
def onVideoFrame (d : Receiver) (frame : Nat) (f : PadPlay.Protocol.Frame) (buffer : BufferAnswer)
    (queueThrows : Bool) : Receiver :=
  if maxFrameBytes < f.payload.length then
    { d with stage := .closing, demuxed := d.demuxed ++ [⟨frame, false⟩] }
  else
    let answer : VideoAnswer := ⟨d.freeInputs.head?, buffer, queueThrows⟩
    let d := { d with freeInputs := d.freeInputs.tail }
    match queueVideo answer f.payload (receivedFrameHeader f.header) with
    | .error _ => { d with stage := .closing, demuxed := d.demuxed ++ [⟨frame, false⟩] }
    | .ok none => { d with demuxed := d.demuxed ++ [⟨frame, false⟩] }
    | .ok (some unit) =>
      { d with
        demuxed := d.demuxed ++ [⟨frame, true⟩], decoding := d.decoding ++ [⟨frame, unit⟩] }

/-- What it takes for a video frame to be queued: an input buffer is free and has room for it, and
nothing throws. -/
def accepts (d : Receiver) (f : PadPlay.Protocol.Frame) (buffer : BufferAnswer)
    (queueThrows : Bool) : Bool :=
  match d.freeInputs, buffer with
  | _ :: _, .buffer capacity =>
    decide (f.payload.length ≤ maxFrameBytes ∧ f.payload.length ≤ capacity) && !queueThrows
  | _, _ => false

/-- An audio frame arrives; what the audio sink lets escape leaves the loop. -/
def onAudioFrame (d : Receiver) (escapes : Bool) : Receiver :=
  if escapes then { d with stage := .closing } else d

/-- The decoder puts out a frame. Render only while a surface is attached; only what is rendered is
acknowledged. -/
def onOutputBufferAvailable (d : Receiver) : Option Receiver :=
  if d.stage = .closed then none
  else
    match d.decoding with
    | [] => none
    | input :: decoding =>
      let render := d.surface
      let d := { d with decoding, shown := d.shown ++ [⟨input.frame, render⟩] }
      let ack : Ack := ⟨input.frame, input.unit.presentationTimeUs * 1000⟩
      some (if render then { d with pendingAcks := d.pendingAcks ++ [ack] } else d)

/-- The writer takes a pending acknowledgement and writes it; if only `k` of its bytes go out, the
write failed and the writer stops. -/
def writeAck (d : Receiver) (k : Nat) : Option (List AckByte × Receiver) :=
  if d.ackWriter then
    match d.pendingAcks with
    | [] => none
    | ack :: pendingAcks =>
      some (ack.bytes.take k,
        { d with pendingAcks, ackWriter := PadPlay.Protocol.ACK_LEN ≤ k })
  else none

/-! ## What became of the frames -/

def queued (d : Receiver) : List Nat := (d.demuxed.filter (·.queued)).map (·.frame)

/-- The frames rendered, which are the ones acknowledged, in order. -/
def rendered (d : Receiver) : List Nat := (d.shown.filter (·.rendered)).map (·.frame)

/-- The decoder is a queue: what was queued has been put out, in order, or is still inside. What was
rendered is acknowledged in order: `written` acknowledgements have been handed to the socket. -/
structure Sound (d : Receiver) (written : List Nat) : Prop where
  order : d.queued = d.shown.map (·.frame) ++ d.decoding.map (·.frame)
  acks : d.rendered = written ++ d.pendingAcks.map (·.frame)

theorem sound_init (surface : Bool) : (init surface).Sound [] := ⟨rfl, rfl⟩

theorem Sound.written_le {d : Receiver} {written : List Nat} (h : d.Sound written) :
    written.length ≤ d.demuxed.length :=
  calc written.length ≤ d.rendered.length := by
        rw [h.acks, List.length_append]
        exact Nat.le_add_right _ _
    _ ≤ d.shown.length := by
        rw [rendered, List.length_map]
        exact List.length_filter_le _ _
    _ ≤ d.queued.length := by
        rw [h.order, List.length_append, List.length_map]
        exact Nat.le_add_right _ _
    _ ≤ d.demuxed.length := by
        rw [queued, List.length_map]
        exact List.length_filter_le _ _

theorem Sound.congr {d d' : Receiver} {written : List Nat} (h : d.Sound written)
    (hdemuxed : d'.demuxed = d.demuxed) (hdecoding : d'.decoding = d.decoding)
    (hshown : d'.shown = d.shown) (hacks : d'.pendingAcks = d.pendingAcks) : d'.Sound written := by
  refine ⟨?_, ?_⟩
  · rw [queued, hdemuxed, hshown, hdecoding]
    exact h.order
  · rw [rendered, hshown, hacks]
    exact h.acks

/-- What a video frame does to the device: it is queued or it is not. -/
inductive Takes (d : Receiver) (frame : Nat) : Receiver → Prop
  | queued {d'} (unit : AccessUnit) (hdemuxed : d'.demuxed = d.demuxed ++ [⟨frame, true⟩])
    (hdecoding : d'.decoding = d.decoding ++ [⟨frame, unit⟩]) (hshown : d'.shown = d.shown)
    (hacks : d'.pendingAcks = d.pendingAcks) (hwriter : d'.ackWriter = d.ackWriter) :
    Takes d frame d'
  | dropped {d'} (hdemuxed : d'.demuxed = d.demuxed ++ [⟨frame, false⟩])
    (hdecoding : d'.decoding = d.decoding) (hshown : d'.shown = d.shown)
    (hacks : d'.pendingAcks = d.pendingAcks) (hwriter : d'.ackWriter = d.ackWriter) :
    Takes d frame d'

theorem onVideoFrame_spec (d : Receiver) (frame : Nat) (f : PadPlay.Protocol.Frame)
    (buffer : BufferAnswer) (queueThrows : Bool) :
    Takes d frame (d.onVideoFrame frame f buffer queueThrows) := by
  unfold onVideoFrame
  split
  · exact .dropped rfl rfl rfl rfl rfl
  · simp only
    split
    · exact .dropped rfl rfl rfl rfl rfl
    · exact .dropped rfl rfl rfl rfl rfl
    · next unit _ => exact .queued unit rfl rfl rfl rfl rfl

theorem onVideoFrame_demuxed (d : Receiver) (frame : Nat) (f : PadPlay.Protocol.Frame)
    (buffer : BufferAnswer) (queueThrows : Bool) :
    (d.onVideoFrame frame f buffer queueThrows).demuxed =
      d.demuxed ++ [⟨frame, d.accepts f buffer queueThrows⟩] := by
  unfold onVideoFrame accepts
  split
  · next hlong =>
    have hno : ¬f.payload.length ≤ maxFrameBytes := Nat.not_le.2 hlong
    cases d.freeInputs <;> cases buffer <;> simp [hno]
  · next hlen =>
    have hclamp := receivedFrameHeader_length (Nat.le_of_not_lt hlen)
    have hroom := Nat.le_of_not_lt hlen
    simp only [queueVideo, putBuffer, hclamp, Nat.lt_irrefl, if_false]
    cases d.freeInputs with
    | nil => rfl
    | cons index freeInputs =>
      cases buffer with
      | null => rfl
      | throws => rfl
      | buffer capacity =>
        by_cases hcap : capacity < f.payload.length
        · simp [hcap, Nat.not_le.2 hcap]
        · cases queueThrows <;> simp [hcap, hroom, Nat.le_of_not_lt hcap]

theorem Takes.demuxed {d d' : Receiver} {frame : Nat} (h : Takes d frame d') :
    ∃ queued, d'.demuxed = d.demuxed ++ [⟨frame, queued⟩] := by
  cases h with
  | queued _ hdemuxed => exact ⟨true, hdemuxed⟩
  | dropped hdemuxed => exact ⟨false, hdemuxed⟩

theorem Takes.shown {d d' : Receiver} {frame : Nat} (h : Takes d frame d') :
    d'.shown = d.shown := by
  cases h <;> assumption

theorem Takes.ackWriter {d d' : Receiver} {frame : Nat} (h : Takes d frame d') :
    d'.ackWriter = d.ackWriter := by
  cases h <;> assumption

theorem Sound.takes {d d' : Receiver} {frame : Nat} {written : List Nat} (h : d.Sound written)
    (ht : Takes d frame d') : d'.Sound written := by
  cases ht with
  | queued unit hdemuxed hdecoding hshown hacks hwriter =>
    refine ⟨?_, by rw [rendered, hshown, hacks]; exact h.acks⟩
    have horder := h.order
    rw [Receiver.queued] at horder ⊢
    simp only [hdemuxed, hdecoding, hshown, List.filter_append, List.map_append, horder]
    simp
  | dropped hdemuxed hdecoding hshown hacks hwriter =>
    refine ⟨?_, by rw [rendered, hshown, hacks]; exact h.acks⟩
    have horder := h.order
    rw [Receiver.queued] at horder ⊢
    simp only [hdemuxed, hdecoding, hshown, List.filter_append, List.map_append, horder]
    simp

structure PutsOut (d : Receiver) (input : DecoderInput) (d' : Receiver) : Prop where
  decoding : d.decoding = input :: d'.decoding
  shown : d'.shown = d.shown ++ [⟨input.frame, d.surface⟩]
  acks : d'.pendingAcks.map (·.frame) =
    d.pendingAcks.map (·.frame) ++ if d.surface then [input.frame] else []
  demuxed : d'.demuxed = d.demuxed
  ackWriter : d'.ackWriter = d.ackWriter

theorem onOutputBufferAvailable_spec {d d' : Receiver} (h : d.onOutputBufferAvailable = some d') :
    ∃ input, PutsOut d input d' := by
  unfold onOutputBufferAvailable at h
  split at h
  · cases h
  · split at h
    · cases h
    · next input decoding hdecoding =>
      simp only [Option.some.injEq] at h
      cases hsurface : d.surface with
      | true =>
        simp only [hsurface, if_true] at h
        subst h
        exact ⟨input, hdecoding, by rw [hsurface], by simp [hsurface], rfl, rfl⟩
      | false =>
        simp only [hsurface, Bool.false_eq_true, if_false] at h
        subst h
        exact ⟨input, hdecoding, by rw [hsurface], by simp [hsurface], rfl, rfl⟩

theorem PutsOut.rendered {d d' : Receiver} {input : DecoderInput} (h : PutsOut d input d') :
    d'.rendered = d.rendered ++ if d.surface then [input.frame] else [] := by
  rw [Receiver.rendered, h.shown, List.filter_append, List.map_append]
  cases d.surface <;> rfl

theorem Sound.putsOut {d d' : Receiver} {input : DecoderInput} {written : List Nat}
    (h : d.Sound written) (ho : PutsOut d input d') : d'.Sound written := by
  refine ⟨?_, ?_⟩
  · have horder := h.order
    rw [queued] at horder ⊢
    rw [ho.demuxed, horder, ho.shown, ho.decoding]
    simp
  · rw [ho.rendered, h.acks, ho.acks, List.append_assoc]

structure WritesAck (d : Receiver) (k : Nat) (ack : Ack) (bytes : List AckByte) (d' : Receiver) :
    Prop where
  pending : d.pendingAcks = ack :: d'.pendingAcks
  written : bytes = ack.bytes.take k
  alive : d.ackWriter = true
  stays : d'.ackWriter = true → PadPlay.Protocol.ACK_LEN ≤ k
  demuxed : d'.demuxed = d.demuxed
  decoding : d'.decoding = d.decoding
  shown : d'.shown = d.shown

theorem writeAck_spec {d d' : Receiver} {k : Nat} {bytes : List AckByte}
    (h : d.writeAck k = some (bytes, d')) : ∃ ack, WritesAck d k ack bytes d' := by
  unfold writeAck at h
  split at h
  · next halive =>
    split at h
    · cases h
    · next ack pendingAcks hpending =>
      cases h
      exact ⟨ack, hpending, rfl, halive, of_decide_eq_true, rfl, rfl, rfl⟩
  · cases h

theorem Sound.writesAck {d d' : Receiver} {k : Nat} {ack : Ack} {bytes : List AckByte}
    {written : List Nat} (h : d.Sound written) (hw : WritesAck d k ack bytes d') :
    d'.Sound (written ++ [ack.frame]) := by
  refine ⟨?_, ?_⟩
  · rw [queued, hw.demuxed, hw.shown, hw.decoding]
    exact h.order
  · rw [rendered, hw.shown, List.append_assoc]
    have hacks := h.acks
    rw [rendered, hw.pending] at hacks
    exact hacks

end Receiver

end PadPlay.Device.VideoStream
