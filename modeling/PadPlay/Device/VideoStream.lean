import PadPlay.Device.AudioStream

/-!
# The demultiplexer (`VideoStream.kt`)

`session` reads one stream header and then frames, one `nextFrame` per round of its loop, and hands
each to the video codec or to the audio sink. A frame costs at least the 14 bytes of its header that
are not skipped (`nextFrame_consumes`), so the loop ends with its input.
-/

namespace PadPlay.Device

open PadPlay.Lib PadPlay.Device.DataInput PadPlay.Device.Protocol

namespace VideoStream

/-- `MediaCodec.BUFFER_FLAG_KEY_FRAME`. -/
def BUFFER_FLAG_KEY_FRAME : Int32 := 1

def SCRATCH_BYTES : Nat := 256 * 1024

/-! ## The environment of a session -/

structure VideoAnswer where
  /-- the index `freeInputs.poll` returns in time -/
  poll : Option Int32
  /-- `getInputBuffer` -/
  buffer : BufferAnswer
  /-- `queueInputBuffer` throws -/
  queueThrows : Bool
  deriving DecidableEq, Repr

/-- How far `configureCodec` gets: it makes a decoder before it configures and starts it, and each
of the three can throw. -/
inductive CodecAnswer where
  | notMade
  | notStarted
  | started
  deriving DecidableEq, Repr

/-- Everything a session meets that is not on the wire. The answers are indexed by the rounds of the
loop. -/
structure Env where
  /-- a valid surface shows up before the deadline -/
  surface : Bool
  configureCodec : CodecAnswer
  running : Nat → Bool
  video : Nat → VideoAnswer
  audio : Nat → AudioAnswer
  audioConfigure : ConfigureAnswer

/-! ## Frames -/

structure DemuxedFrame where
  streamType : Int32
  payload : List UInt8
  ptsNs : Int64
  keyframe : Bool
  deriving DecidableEq, Repr

def frameIn (frame : FrameHeader) (scratch : List UInt8) : DemuxedFrame where
  streamType := frame.streamType
  payload := scratch.take frame.length.toNatClampNeg
  ptsNs := frame.ptsNs
  keyframe := frame.keyframe

/-- The buffer, replaced by a larger one if it has no room for `length` bytes. -/
def makeRoom (scratch : List UInt8) (length : Nat) : List UInt8 :=
  if scratch.length < length then List.replicate length 0 else scratch

theorem le_makeRoom (scratch : List UInt8) (length : Nat) :
    length ≤ (makeRoom scratch length).length := by
  unfold makeRoom
  split
  · rw [List.length_replicate]
  · omega

def nextFrame (scratch : List UInt8) : DataInput (FrameHeader × List UInt8) := do
  let frame ← readFrameHeader
  let scratch ← readFully (makeRoom scratch frame.length.toNatClampNeg) frame.length
  return (frame, scratch)

/-! ## The loop -/

/-- Where frames go: the audio sink, if there is one, and the video codec, of which the log of
queued access units is kept. -/
structure Consumers where
  audioSink : Option AudioStream
  queued : List AccessUnit
  deriving DecidableEq, Repr

/-- The state of the loop, with logs of the frames it obtained and the rounds it began. -/
structure Loop where
  input : ByteSource
  scratch : List UInt8
  consumers : Consumers
  obtained : List DemuxedFrame
  rounds : Nat

inductive SessionEnd where
  | header (e : Throwable)
  | surface
  | codec
  | stopped
  | reading (e : Throwable)
  | dispatch (e : Throwable)
  deriving DecidableEq, Repr

/-- The video branch: what it queues, if anything. -/
def queueVideo (answer : VideoAnswer) (scratch : List UInt8) (frame : FrameHeader) :
    Except Throwable (Option AccessUnit) :=
  match answer.poll with
  | none => .ok none -- starved of input buffers: the frame is dropped
  | some _ =>
    match answer.buffer with
    | .null => .ok none
    | .throws => .error .illegalState
    | .buffer capacity =>
      match putBuffer capacity scratch frame.length.toNatClampNeg with
      | .error e => .error e
      | .ok payload =>
        let flags := if frame.keyframe then BUFFER_FLAG_KEY_FRAME else 0
        if answer.queueThrows then .error .illegalState
        else .ok (some ⟨payload, frame.ptsNs / 1000, flags⟩)

/-- The `when` over the stream type, for the frame in `scratch`. -/
def dispatch (env : Env) (round : Nat) (frame : FrameHeader) (scratch : List UInt8)
    (c : Consumers) : Except Throwable Consumers :=
  if frame.streamType = STREAM_TYPE_AUDIO then
    match c.audioSink with
    | none => .ok c
    | some sink =>
      match sink.onAudioFrame (env.audio round) scratch frame.length frame.ptsNs with
      | .error e => .error e
      | .ok sink => .ok { c with audioSink := some sink }
  else if frame.streamType = STREAM_TYPE_VIDEO then
    match queueVideo (env.video round) scratch frame with
    | .error e => .error e
    | .ok unit => .ok { c with queued := c.queued ++ unit.toList }
  else .ok c -- unknown stream type: the frame is dropped

/-! ### Termination -/

/-- `m` consumes at least `k` bytes whenever it returns. -/
def Consumes {α : Type} (m : DataInput α) (k : Nat) : Prop :=
  ∀ s a s', m.run s = .ok (a, s') → s'.bytes.length + k ≤ s.bytes.length

theorem Consumes.bind {α β : Type} {m : DataInput α} {f : α → DataInput β} {k k' : Nat}
    (hm : Consumes m k) (hf : ∀ a, Consumes (f a) k') : Consumes (m >>= f) (k + k') := by
  intro s b s'' h
  rw [StateT.run_bind] at h
  cases hrun : m.run s with
  | error e => rw [hrun] at h; cases h
  | ok r =>
    obtain ⟨a, s'⟩ := r
    rw [hrun] at h
    have h₁ := hm s a s' hrun
    have h₂ := hf a s' b s'' h
    omega

theorem Consumes.pure {α : Type} (a : α) : Consumes (pure a : DataInput α) 0 := by
  intro s b s' h
  cases h
  exact Nat.le_refl _

theorem consumes_require (c : Prop) [Decidable c] (e : Throwable) : Consumes (require c e) 0 := by
  intro s b s' h
  unfold require at h
  split at h
  · cases h; exact Nat.le_refl _
  · cases h

theorem consumes_readBytes (n : Nat) : Consumes (readBytes n) n := by
  intro s bs s' h
  by_cases hn : n ≤ s.bytes.length
  · obtain ⟨r, hr, hk⟩ := ByteSource.readFully_ok hn
    simp only [readBytes, StateT.run, hr, Except.ok.injEq, Prod.mk.injEq] at h
    rw [← h.2, hk.bytes, List.length_drop]
    omega
  · rw [Nat.not_le] at hn
    simp [readBytes, StateT.run, ByteSource.readFully_error hn] at h

/-- Skipped bytes may be missing at the end of the stream, so they do not count. -/
theorem consumes_skipBytes (n : Nat) : Consumes (skipBytes n) 0 := by
  intro s u s' h
  by_cases hn : n ≤ s.bytes.length
  · obtain ⟨r, hr, hk⟩ := ByteSource.skipBytes_ok hn
    simp only [skipBytes, StateT.run, hr, Except.ok.injEq, Prod.mk.injEq] at h
    rw [← h.2, hk.bytes, List.length_drop]
    omega
  · rw [Nat.not_le] at hn
    rcases ByteSource.skipBytes_short hn with ⟨-, r, hr, hnil, -⟩ | ⟨-, hr⟩
    · simp only [skipBytes, StateT.run, hr, Except.ok.injEq, Prod.mk.injEq] at h
      rw [← h.2, hnil]
      exact Nat.zero_le _
    · simp [skipBytes, StateT.run, hr] at h

theorem consumes_readFrameHeader : Consumes readFrameHeader 14 :=
  ((consumes_readBytes 4).bind fun _ => .pure _).bind fun _ => (consumes_require _ _).bind fun _ =>
  ((consumes_readBytes 8).bind fun _ => .pure _).bind fun _ =>
  ((consumes_readBytes 1).bind fun _ => .pure _).bind fun _ =>
  ((consumes_readBytes 1).bind fun _ => .pure _).bind fun _ =>
  (consumes_skipBytes 2).bind fun _ => .pure _

private theorem readFullyFrom_bytes_le {buffer b : List UInt8} {length read : Nat}
    {s s' : ByteSource} (h : readFullyFrom buffer length read s = .ok (b, s')) :
    s'.bytes.length ≤ s.bytes.length := by
  fun_induction readFullyFrom buffer length read s with
  | case1 => cases h
  | case2 => cases h
  | case3 => cases h
  | case4 buffer read s hlt _ chunk rest hanswer ih =>
    have hrest := (ByteSource.read_data hanswer).2.2.2.bytes
    have hle := ih h
    rw [hrest, List.length_drop] at hle
    omega
  | case5 => cases h; exact Nat.le_refl _

theorem consumes_readFully (buffer : List UInt8) (length : Int32) :
    Consumes (readFully buffer length) 0 :=
  fun _ _ _ h => readFullyFrom_bytes_le h

/-- **A frame costs at least 14 bytes.** -/
theorem nextFrame_consumes (scratch : List UInt8) : Consumes (nextFrame scratch) 14 :=
  consumes_readFrameHeader.bind fun frame =>
    (consumes_readFully _ frame.length).bind fun _ => .pure _

/-- The `while (running)` loop. -/
def loop (env : Env) (l : Loop) : SessionEnd × Loop :=
  if env.running l.rounds then
    let rounds := l.rounds + 1
    match _hnext : (nextFrame l.scratch).run l.input with
    | .error e => (.reading e, { l with rounds })
    | .ok ((frame, scratch), input) =>
      let obtained := l.obtained ++ [frameIn frame scratch]
      match dispatch env l.rounds frame scratch l.consumers with
      | .error e => (.dispatch e, ⟨input, scratch, l.consumers, obtained, rounds⟩)
      | .ok consumers => loop env ⟨input, scratch, consumers, obtained, rounds⟩
  else (.stopped, l)
termination_by l.input.bytes.length
decreasing_by
  have := nextFrame_consumes _ _ _ _ _hnext
  omega

/-! ## The session -/

/-- What is done with the video decoder of a session. -/
inductive DecoderCall where
  | createDecoderByType
  | release
  deriving DecidableEq, Repr

structure SessionRun where
  header : Option StreamHeader
  ended : SessionEnd
  loop : Loop
  decoder : List DecoderCall

def start (audioSink : Option AudioStream) (input : ByteSource) : Loop where
  input := input
  scratch := List.replicate SCRATCH_BYTES 0
  consumers := ⟨audioSink, []⟩
  obtained := []
  rounds := 0

def session (env : Env) (audioSink : Option AudioStream) (input : ByteSource) : SessionRun :=
  match readStreamHeader.run input with
  | .error e => ⟨none, .header e, start audioSink input, []⟩
  | .ok (header, input) =>
    let audioSink := audioSink.map fun sink => sink.onStreamHeader env.audioConfigure header
    if !env.surface then ⟨some header, .surface, start audioSink input, []⟩
    else
      match env.configureCodec with
      | .notMade => ⟨some header, .codec, start audioSink input, []⟩
      | .notStarted => ⟨some header, .codec, start audioSink input, [.createDecoderByType]⟩
      | .started =>
        let (ended, l) := loop env (start audioSink input)
        -- the `finally` block is behind the loop alone
        let audioSink := l.consumers.audioSink.map (·.onSessionEnded)
        ⟨some header, ended, { l with consumers := { l.consumers with audioSink } },
          [.createDecoderByType, .release]⟩

end VideoStream

end PadPlay.Device
