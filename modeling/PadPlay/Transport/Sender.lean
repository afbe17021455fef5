import PadPlay.Lib.ByteSink
import PadPlay.Protocol

/-!
# The sending side (`crates/transport`)

`Sender.connect` writes the stream header, `Sender.send` one frame header and its payload in one
vectored write. Both leave a prefix of what they had to write on the socket, and the whole of it
exactly when they succeed (`connect_spec`, `send_spec`); `sendAll` runs a sequence of frames until
the first error, as the pacing loop of a session does (`sendAll_spec`).
-/

namespace PadPlay.Transport

open PadPlay.Lib PadPlay.Protocol

/-! ## The stream header -/

structure AudioParams where
  sampleRateHz : UInt32
  channels : UInt8
  preSkip : UInt16
  deriving DecidableEq, Repr

/-- `None` is a video-only header. The size and the frame rate are cast. -/
def streamHeader (width height framerate : UInt32) (audio : Option AudioParams) :
    Except String StreamHeader := do
  let (audioCodec, audioSampleRateHz, audioChannels, audioPreSkip) ←
    match audio with
    | none => pure (AudioCodec.none, 0, 0, 0)
    | some params =>
      if params.sampleRateHz.toNat < 2 ^ 16 then
        pure (AudioCodec.opus, params.sampleRateHz.toUInt16, params.channels, params.preSkip)
      else throw s!"audio sample rate {params.sampleRateHz} does not fit in u16"
  return { width := width.toUInt16, height := height.toUInt16, framerate := framerate.toUInt16,
           codec := .h264, audioCodec, audioSampleRateHz, audioChannels, audioPreSkip }

/-! ## `write_all_vectored` -/

/-- `Write::write_all_vectored` is still unstable, so advance the slices by hand. Unlike the library
version, this one hands an interrupted call on as an error. -/
def writeAllVectored (writer : ByteSink) (slices : List (List UInt8)) :
    Except WriteError Unit × ByteSink :=
  if slices = [] then (.ok (), writer)
  else
    match _hwrite : writer.writeVectored slices with
    | (.error e, writer) => (.error e, writer)
    | (.ok written, writer) =>
      if _hzero : written = 0 then (.error .writeZero, writer)
      else writeAllVectored writer (advanceSlices slices written)
termination_by slices.flatten.length
decreasing_by
  have := (ByteSink.writeVectored_ok _hwrite).1
  rw [advanceSlices_flatten, List.length_drop]
  omega

/-- **`write_all_vectored`** on slices that start with a nonempty one appends a prefix of their
concatenation, and all of it exactly when it succeeds. -/
theorem writeAllVectored_spec (writer : ByteSink) (slices : List (List UInt8))
    (hne : slices ≠ [] → slices.flatten ≠ []) :
    ∃ k, k ≤ slices.flatten.length ∧
      (writeAllVectored writer slices).2.wire = writer.wire ++ slices.flatten.take k ∧
      ((writeAllVectored writer slices).1 = .ok () ↔ k = slices.flatten.length) := by
  fun_induction writeAllVectored writer slices with
  | case1 writer => exact ⟨0, by simp⟩
  | case2 writer slices hs e writer' hwrite =>
    have hpos := List.length_pos_iff.2 (hne hs)
    refine ⟨0, by omega, by simp [ByteSink.writeVectored_error hwrite], ?_⟩
    simp only [reduceCtorEq, false_iff]
    omega
  | case3 writer slices hs writer' hwrite =>
    have hpos := List.length_pos_iff.2 (hne hs)
    refine ⟨0, by omega, by simp [(ByteSink.writeVectored_ok hwrite).2], ?_⟩
    simp only [reduceCtorEq, false_iff]
    omega
  | case4 writer slices hs written writer' hwrite hzero ih =>
    obtain ⟨k, hk, hwire, hiff⟩ := ih (advanceSlices_ne_nil slices written)
    obtain ⟨hle, hw⟩ := ByteSink.writeVectored_ok hwrite
    rw [advanceSlices_flatten] at hk hwire hiff
    rw [List.length_drop] at hk hiff
    refine ⟨written + k, by omega, ?_, hiff.trans (by omega)⟩
    rw [hwire, hw, List.append_assoc, List.take_add]

/-! ## `Sender` -/

/-- A failed operation: what it was doing, and the I/O error that stopped it. -/
structure SendError where
  context : String
  cause : WriteError
  deriving DecidableEq, Repr

structure Sender where
  stream : ByteSink
  framesSent : UInt64
  bytesSent : UInt64

namespace Sender

/-- Send the stream header on a fresh connection. On an error the `Sender` is dropped; it is
returned here for the bytes that went out. -/
def connect (stream : ByteSink) (header : StreamHeader) : Except SendError Unit × Sender :=
  let encoded := header.encode
  match stream.writeAll encoded with
  | (.error e, stream) => (.error ⟨"sending stream header", e⟩, ⟨stream, 0, 0⟩)
  | (.ok (), stream) => (.ok (), ⟨stream, 0, UInt64.ofNat encoded.length⟩)

def send (self : Sender) (streamType : StreamType) (payload : List UInt8) (ptsNs : UInt64)
    (keyframe : Bool) : Except SendError Unit × Sender :=
  let header := FrameHeader.encode
    { length := UInt32.ofNat payload.length, ptsNs, keyframe, streamType }
  match writeAllVectored self.stream [header, payload] with
  | (.error e, stream) => (.error ⟨"sending frame", e⟩, { self with stream })
  | (.ok (), stream) =>
    (.ok (), ⟨stream, self.framesSent + 1,
      self.bytesSent + UInt64.ofNat (header.length + payload.length)⟩)

def sendVideoFrame (self : Sender) (payload : List UInt8) (ptsNs : UInt64) (keyframe : Bool) :
    Except SendError Unit × Sender :=
  self.send .video payload ptsNs keyframe

/-- Opus packets have no keyframe concept, so the flag is always `false` on the wire. -/
def sendAudioFrame (self : Sender) (payload : List UInt8) (ptsNs : UInt64) :
    Except SendError Unit × Sender :=
  self.send .audio payload ptsNs false

end Sender

/-! ## A run of sends -/

inductive SendCall where
  | video (payload : List UInt8) (ptsNs : UInt64) (keyframe : Bool)
  | audio (payload : List UInt8) (ptsNs : UInt64)
  deriving DecidableEq, Repr

namespace SendCall

def frame : SendCall → Frame
  | video payload ptsNs keyframe => ⟨.video, payload, ptsNs, keyframe⟩
  | audio payload ptsNs => ⟨.audio, payload, ptsNs, false⟩

def perform (self : Sender) : SendCall → Except SendError Unit × Sender
  | video payload ptsNs keyframe => self.sendVideoFrame payload ptsNs keyframe
  | audio payload ptsNs => self.sendAudioFrame payload ptsNs

end SendCall

/-- Perform the calls in order, stopping at the first error. -/
def sendAll (self : Sender) : List SendCall → Except SendError Unit × Sender
  | [] => (.ok (), self)
  | call :: calls =>
    match call.perform self with
    | (.error e, self) => (.error e, self)
    | (.ok (), self) => sendAll self calls

/-- A whole connection: the header, and then the calls. -/
def transmit (answers : Nat → WriteAnswer) (header : StreamHeader) (calls : List SendCall) :
    Except SendError Unit × Sender :=
  match Sender.connect ⟨[], answers⟩ header with
  | (.error e, self) => (.error e, self)
  | (.ok (), self) => sendAll self calls

/-! ## What one operation leaves behind -/

/-- An operation that had `whole` to write put its first `k` bytes on the wire: all of them, with
the counters advanced by one frame and by its length, or fewer, with an error and the counters
unchanged. -/
structure Wrote (s s' : Sender) (whole : List UInt8) (frames : UInt64)
    (result : Except SendError Unit) (k : Nat) : Prop where
  wire : s'.stream.wire = s.stream.wire ++ whole.take k
  ok : result = .ok () → k = whole.length ∧ s'.framesSent = s.framesSent + frames ∧
    s'.bytesSent = s.bytesSent + UInt64.ofNat whole.length
  failed : ∀ e, result = .error e → k < whole.length ∧ s'.framesSent = s.framesSent ∧
    s'.bytesSent = s.bytesSent

namespace Sender

/-- **`connect`** leaves a prefix of the encoded header on a fresh connection. -/
theorem connect_spec (answers : Nat → WriteAnswer) (header : StreamHeader) :
    ∃ k, Wrote ⟨⟨[], answers⟩, 0, 0⟩ (connect ⟨[], answers⟩ header).2 header.encode 0
      (connect ⟨[], answers⟩ header).1 k := by
  obtain ⟨k, hk, hwire, hiff⟩ := ByteSink.writeAll_spec ⟨[], answers⟩ header.encode
  refine ⟨k, ?_⟩
  rcases hw : ByteSink.writeAll ⟨[], answers⟩ header.encode with ⟨r, stream'⟩
  rw [hw] at hwire hiff
  simp only [connect, hw]
  cases r with
  | error e =>
    have hlt : k < header.encode.length :=
      Nat.lt_of_le_of_ne hk fun h => by cases hiff.2 h
    exact ⟨hwire, by simp, fun _ _ => ⟨hlt, rfl, rfl⟩⟩
  | ok u =>
    exact ⟨hwire, fun _ => ⟨hiff.1 rfl, rfl, (UInt64.zero_add _).symm⟩, nofun⟩

theorem send_frame (self : Sender) (f : Frame) :
    self.send f.streamType f.payload f.ptsNs f.keyframe =
      match writeAllVectored self.stream [f.header.encode, f.payload] with
      | (.error e, stream) => (.error ⟨"sending frame", e⟩, { self with stream })
      | (.ok (), stream) =>
        (.ok (), ⟨stream, self.framesSent + 1,
          self.bytesSent + UInt64.ofNat (f.header.encode.length + f.payload.length)⟩) := rfl

/-- **`send`** leaves a prefix of the encoded frame. -/
theorem send_spec (self : Sender) (f : Frame) :
    ∃ k, Wrote self (self.send f.streamType f.payload f.ptsNs f.keyframe).2 f.encode 1
      (self.send f.streamType f.payload f.ptsNs f.keyframe).1 k := by
  have hflat : [f.header.encode, f.payload].flatten = f.encode := by simp [Frame.encode]
  obtain ⟨k, hk, hwire, hiff⟩ := writeAllVectored_spec self.stream [f.header.encode, f.payload]
    (fun _ => by rw [hflat]; exact f.encode_ne_nil)
  rw [hflat] at hk hwire hiff
  refine ⟨k, ?_⟩
  rcases hw : writeAllVectored self.stream [f.header.encode, f.payload] with ⟨r, stream'⟩
  rw [hw] at hwire hiff
  rw [send_frame, hw]
  cases r with
  | error e =>
    have hlt : k < f.encode.length := Nat.lt_of_le_of_ne hk fun h => by cases hiff.2 h
    exact ⟨hwire, by simp, fun _ _ => ⟨hlt, rfl, rfl⟩⟩
  | ok u =>
    refine ⟨hwire, fun _ => ⟨hiff.1 rfl, rfl, ?_⟩, by simp⟩
    simp [Frame.encode]

end Sender

theorem SendCall.perform_spec (self : Sender) (call : SendCall) :
    ∃ k, Wrote self (call.perform self).2 call.frame.encode 1 (call.perform self).1 k := by
  cases call with
  | video payload ptsNs keyframe => exact Sender.send_spec self ⟨.video, payload, ptsNs, keyframe⟩
  | audio payload ptsNs => exact Sender.send_spec self ⟨.audio, payload, ptsNs, false⟩

/-! ## What a run leaves behind -/

def wireOf (calls : List SendCall) : List UInt8 :=
  calls.flatMap fun call => call.frame.encode

@[simp] theorem wireOf_nil : wireOf [] = [] := rfl

@[simp] theorem wireOf_cons (call : SendCall) (calls : List SendCall) :
    wireOf (call :: calls) = call.frame.encode ++ wireOf calls := rfl

/-- A run that got through `sent` of its calls put the first `k` bytes of their frames on the wire,
and of the next call, which failed, at most a proper prefix. -/
structure WroteAll (s s' : Sender) (calls : List SendCall)
    (result : Except SendError Unit) (sent k : Nat) : Prop where
  wire : s'.stream.wire = s.stream.wire ++ (wireOf calls).take k
  ok : result = .ok () → sent = calls.length ∧ k = (wireOf calls).length
  failed : ∀ e, result = .error e →
    sent < calls.length ∧ k < (wireOf (calls.take (sent + 1))).length
  whole : (wireOf (calls.take sent)).length ≤ k
  frames : s'.framesSent = s.framesSent + UInt64.ofNat sent
  bytes : s'.bytesSent = s.bytesSent + UInt64.ofNat (wireOf (calls.take sent)).length

/-- A run stays within the calls it completed and the one that failed. -/
theorem WroteAll.reached {s s' : Sender} {calls : List SendCall} {result : Except SendError Unit}
    {sent k : Nat} (h : WroteAll s s' calls result sent k) :
    (wireOf calls).take k <+: wireOf (calls.take (sent + 1)) := by
  have hsplit : wireOf calls =
      wireOf (calls.take (sent + 1)) ++ wireOf (calls.drop (sent + 1)) := by
    rw [wireOf, wireOf, wireOf, ← List.flatMap_append, List.take_append_drop]
  cases result with
  | ok u =>
    obtain ⟨rfl, rfl⟩ := h.ok rfl
    have hall : calls.take (calls.length + 1) = calls := List.take_of_length_le (Nat.le_succ _)
    simp only [List.take_length, hall, List.prefix_rfl]
  | error e =>
    have := (h.failed e rfl).2
    rw [hsplit, List.take_append_of_le_length (by omega)]
    exact List.take_prefix ..

/-- **A run of sends**: by induction on the calls, each adding what `perform_spec` says. -/
theorem sendAll_spec (calls : List SendCall) : ∀ self : Sender,
    ∃ sent k, WroteAll self (sendAll self calls).2 calls (sendAll self calls).1 sent k := by
  induction calls with
  | nil =>
    intro self
    exact ⟨0, 0, by simp [sendAll], fun _ => ⟨rfl, rfl⟩, fun _ h => by simp [sendAll] at h,
      Nat.le_refl _, by simp [sendAll], by simp [sendAll]⟩
  | cons call calls ih =>
    intro self
    obtain ⟨k, hone⟩ := call.perform_spec self
    rcases hp : call.perform self with ⟨r, self₁⟩
    rw [hp] at hone
    simp only [sendAll, hp]
    cases r with
    | error e =>
      obtain ⟨hlt, hf, hb⟩ := hone.failed e rfl
      refine ⟨0, k, ?_, fun h => by simp at h, fun _ _ => ⟨by simp, ?_⟩, by simp, ?_, ?_⟩
      · rw [hone.wire, wireOf_cons, List.take_append_of_le_length (Nat.le_of_lt hlt)]
      · simpa using hlt
      · simpa using hf
      · simpa using hb
    | ok u =>
      obtain ⟨hk, hf, hb⟩ := hone.ok rfl
      obtain ⟨sent, m, hall⟩ := ih self₁
      refine ⟨sent + 1, k + m, ?_, fun h => ?_, fun e h => ?_, ?_, ?_, ?_⟩
      · rw [hall.wire, hone.wire, hk, List.take_length, wireOf_cons, List.append_assoc,
          List.take_length_add_append]
      · obtain ⟨h1, h2⟩ := hall.ok h
        exact ⟨by simp [h1], by simp [hk, h2]⟩
      · obtain ⟨h1, h2⟩ := hall.failed e h
        refine ⟨by simpa using h1, ?_⟩
        rw [List.take_succ_cons, wireOf_cons, List.length_append, hk]
        omega
      · have := hall.whole
        rw [List.take_succ_cons, wireOf_cons, List.length_append, hk]
        omega
      · rw [hall.frames, hf, UInt64.ofNat_add, UInt64.add_assoc, UInt64.add_comm 1]
        rfl
      · rw [hall.bytes, hb, List.take_succ_cons, wireOf_cons, List.length_append,
          UInt64.ofNat_add, UInt64.add_assoc]

/-! ## What a connection leaves behind -/

/-- A connection that completed `sent` of its calls put on the wire the header and their frames, and
of the next call at most its frame. -/
structure Transmitted (header : StreamHeader) (calls : List SendCall)
    (result : Except SendError Unit) (sender : Sender) (sent : Nat) : Prop where
  wire : sender.stream.wire <+: header.encode ++ wireOf (calls.take (sent + 1))
  frames : sender.framesSent = UInt64.ofNat sent
  ok : result = .ok () → sent = calls.length ∧ sender.stream.wire = header.encode ++ wireOf calls ∧
    sender.bytesSent = UInt64.ofNat sender.stream.wire.length

theorem transmit_spec (answers : Nat → WriteAnswer) (header : StreamHeader)
    (calls : List SendCall) :
    ∃ sent, Transmitted header calls (transmit answers header calls).1
      (transmit answers header calls).2 sent := by
  obtain ⟨k, hone⟩ := Sender.connect_spec answers header
  unfold transmit
  rcases hc : Sender.connect ⟨[], answers⟩ header with ⟨r, self⟩
  rw [hc] at hone
  cases r with
  | error e =>
    refine ⟨0, ?_, (hone.failed e rfl).2.1, nofun⟩
    rw [hone.wire, List.nil_append]
    exact (List.take_prefix ..).trans (List.prefix_append ..)
  | ok u =>
    obtain ⟨hk, hf, hb⟩ := hone.ok rfl
    obtain ⟨sent, m, hall⟩ := sendAll_spec calls self
    have hwire : (sendAll self calls).2.stream.wire = header.encode ++ (wireOf calls).take m := by
      rw [hall.wire, hone.wire, hk, List.take_length, List.nil_append]
    refine ⟨sent, ?_, ?_, fun h => ?_⟩
    · rw [hwire, List.prefix_append_right_inj]
      exact hall.reached
    · have hzero : self.framesSent = 0 := hf
      rw [hall.frames, hzero, UInt64.zero_add]
    · obtain ⟨hsent, hm⟩ := hall.ok h
      rw [hm, List.take_length] at hwire
      refine ⟨hsent, hwire, ?_⟩
      rw [hall.bytes, hb, hwire, hsent, List.take_length, List.length_append, UInt64.ofNat_add,
        UInt64.zero_add]

end PadPlay.Transport
