import PadPlay.Device.Protocol

/-!
# The audio side of the device (`AudioStream.kt`)

The part of `AudioStream` the demultiplexer calls: one `onStreamHeader` per session, one
`onAudioFrame` per audio frame, one `onSessionEnded`. What the platform answers to these calls is an
`AudioAnswer`; the calls that can throw past `onAudioFrame` are exactly `getInputBuffer` and `put`
(`onAudioFrame_error_iff`).
-/

namespace PadPlay.Device

open PadPlay.Lib (toLE)
open PadPlay.Device.Protocol (StreamHeader)

inductive Phase where
  | waiting
  | connecting
  | streaming
  | disconnected (reason : Option String)
  deriving DecidableEq, Repr

/-- What `configure` does: builds decoder, track and threads, or throws an exception. -/
inductive ConfigureAnswer where
  | configured
  | throws (message : Option String)
  deriving DecidableEq, Repr

structure AudioAnswer where
  /-- `stop()` ran on the UI thread since the last call -/
  stopped : Bool
  /-- what `dequeueInputBuffer(0)` returns, if it does not throw -/
  dequeue : Option Int32
  /-- `getInputBuffer` -/
  buffer : BufferAnswer
  /-- the message `queueInputBuffer` throws with, if it throws -/
  queue : Option (Option String)
  deriving DecidableEq, Repr

/-- The fields of `AudioStream`; `codec` is whether a decoder is attached, and `queued` what was
queued into it. -/
structure AudioStream where
  running : Bool
  codec : Bool
  lastError : Option String
  phase : Phase
  queued : List AccessUnit
  deriving DecidableEq, Repr

namespace AudioStream

def teardown (s : AudioStream) : AudioStream := { s with codec := false, queued := [] }

def start (s : AudioStream) : AudioStream :=
  if s.running then s else { s with running := true, phase := .waiting }

def stop (s : AudioStream) : AudioStream :=
  { ({ s with running := false } : AudioStream).teardown with phase := .disconnected none }

def onStreamHeader (s : AudioStream) (answer : ConfigureAnswer) (header : StreamHeader) :
    AudioStream :=
  let s := s.teardown
  if !s.running || !header.hasAudio then { s with phase := .waiting }
  else
    match answer with
    | .configured => { s with codec := true, phase := .streaming }
    | .throws message =>
      ({ s with lastError := message, phase := .disconnected message } : AudioStream).teardown

/-- `"${message}"`, with Kotlin's rendering of `null`. -/
def shown : Option String → String
  | none => "null"
  | some message => message

def onAudioFrame (s : AudioStream) (answer : AudioAnswer) (payload : List UInt8) (length : Int32)
    (ptsNs : Int64) : Except Throwable AudioStream :=
  let s := if answer.stopped then s.stop else s
  if !s.codec then .ok s
  else
    let index := answer.dequeue.getD (-1) -- runCatching { .. }.getOrDefault(-1)
    if index < 0 then .ok s -- starved of input buffers: the frame is dropped
    else
      match answer.buffer with
      | .null => .ok s
      | .throws => .error .illegalState
      | .buffer capacity =>
        match putBuffer capacity payload length.toNatClampNeg with
        | .error e => .error e
        | .ok bytes =>
          match answer.queue with
          | none => .ok { s with queued := s.queued ++ [⟨bytes, ptsNs / 1000, 0⟩] }
          | some message =>
            .ok { s with lastError := some s!"audio queueInputBuffer: {shown message}" }

def OPUS_HEAD_LEN : Nat := 19

/-- The Opus identification header, the codec's `csd-0`. Its own fields are little-endian. -/
def opusHead (sampleRate channels preSkip : Int32) : List UInt8 :=
  [0x4F, 0x70, 0x75, 0x73, 0x48, 0x65, 0x61, 0x64] ++ -- "OpusHead"
    [1] ++ [channels.toUInt32.toUInt8] ++ toLE 2 preSkip.toUInt32.toNat ++
    toLE 4 sampleRate.toUInt32.toNat ++ toLE 2 0 ++ [0]

/-- `csd-0` of the format `configure` builds. -/
def csd0 (header : StreamHeader) : List UInt8 :=
  opusHead header.audioSampleRateHz header.audioChannels header.audioPreSkip

def onSessionEnded (s : AudioStream) : AudioStream := { s.teardown with phase := .waiting }

end AudioStream

/-! ## What can escape `onAudioFrame` -/

/-- The codec names an input buffer for the frame, but throws when asked for it or hands out one
with no room for `length` bytes. -/
def AudioAnswer.Escapes (answer : AudioAnswer) (length : Nat) : Prop :=
  0 ≤ answer.dequeue.getD (-1) ∧
    (answer.buffer = .throws ∨ ∃ capacity < length, answer.buffer = .buffer capacity)

namespace AudioStream

/-- Whether a decoder is attached when the next call reads `codec`. -/
def attached (s : AudioStream) (answer : AudioAnswer) : Bool := s.codec && !answer.stopped

private theorem codec_stop (s : AudioStream) (answer : AudioAnswer) :
    (if answer.stopped then s.stop else s).codec = s.attached answer := by
  cases h : answer.stopped <;> simp [attached, h, stop, teardown]

/-- **An audio frame ends the session** exactly when a decoder is attached and the codec's answer
escapes. -/
theorem onAudioFrame_error_iff (s : AudioStream) (answer : AudioAnswer) {payload : List UInt8}
    {length : Int32} (ptsNs : Int64) (hlen : length.toNatClampNeg ≤ payload.length) :
    (∃ e, s.onAudioFrame answer payload length ptsNs = .error e) ↔
      s.attached answer = true ∧ answer.Escapes length.toNatClampNeg := by
  rw [← codec_stop]
  generalize hs : (if answer.stopped then s.stop else s) = s₀
  simp only [onAudioFrame, hs, putBuffer, AudioAnswer.Escapes, if_neg (Nat.not_lt.2 hlen)]
  cases s₀.codec with
  | false => simp
  | true =>
    by_cases hindex : answer.dequeue.getD (-1) < 0
    · have : ¬0 ≤ answer.dequeue.getD (-1) := Int32.not_le.2 hindex
      simp [hindex, this]
    · have : 0 ≤ answer.dequeue.getD (-1) := Int32.not_lt.1 hindex
      cases answer.buffer with
      | null => simp [hindex]
      | throws => simp [hindex, this]
      | buffer capacity =>
        by_cases hcap : capacity < length.toNatClampNeg
        · simp [hindex, this, hcap]
        · cases answer.queue <;> simp [hindex, this, hcap]

theorem onAudioFrame_codec {s s' : AudioStream} {answer : AudioAnswer} {payload : List UInt8}
    {length : Int32} {ptsNs : Int64} (h : s.onAudioFrame answer payload length ptsNs = .ok s') :
    s'.codec = s.attached answer := by
  rw [← codec_stop]
  generalize hs : (if answer.stopped then s.stop else s) = s₀ at *
  simp only [onAudioFrame, hs] at h
  split at h
  · cases h; rfl
  · split at h
    · cases h; rfl
    · split at h
      · cases h; rfl
      · cases h
      · split at h
        · cases h
        · split at h <;> (cases h; rfl)

end AudioStream

end PadPlay.Device
