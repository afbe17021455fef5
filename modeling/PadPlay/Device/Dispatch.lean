import PadPlay.Device.Reading
import PadPlay.Device.VideoStream

/-!
# One frame of the loop

A frame that was read has room in the buffer it was read into (`nextFrame_room`), and is handed on
by its stream type. Nothing is thrown at it (`dispatch_ok`) unless the codec asked for an input
buffer throws, or hands out one with no room.
-/

namespace PadPlay.Device.VideoStream

open PadPlay.Lib PadPlay.Device.DataInput PadPlay.Device.Protocol

/-! ## Payloads have their room -/

theorem readFullyFrom_length {buffer b : List UInt8} {length read : Nat} {s s' : ByteSource}
    (hroom : length ≤ buffer.length) (h : readFullyFrom buffer length read s = .ok (b, s')) :
    b.length = buffer.length := by
  fun_induction readFullyFrom buffer length read s with
  | case1 => cases h
  | case2 => cases h
  | case3 => cases h
  | case4 buffer read s hlt _ chunk rest hanswer ih =>
    have hle := (ByteSource.read_data hanswer).2.1
    have hlen : (writeAt buffer read chunk).length = buffer.length := writeAt_length (by omega)
    rw [ih (by rw [hlen]; exact hroom) h, hlen]
  | case5 => cases h; rfl

theorem nextFrame_room {scratch scratch' : List UInt8} {input input' : ByteSource}
    {frame : FrameHeader} (h : (nextFrame scratch).run input = .ok ((frame, scratch'), input')) :
    frame.length.toNatClampNeg ≤ scratch'.length := by
  rw [nextFrame, StateT.run_bind] at h
  cases hheader : readFrameHeader.run input with
  | error e => rw [hheader] at h; cases h
  | ok r =>
    obtain ⟨header, rest⟩ := r
    rw [hheader] at h
    simp only [Except.bind, bind, StateT.bind, StateT.run] at h
    cases hfully : readFully (makeRoom scratch header.length.toNatClampNeg) header.length rest with
    | error e => rw [hfully] at h; cases h
    | ok r =>
      rw [hfully] at h
      cases h
      rw [readFullyFrom_length (le_makeRoom ..) hfully]
      exact le_makeRoom ..

theorem frameIn_length {frame : FrameHeader} {scratch : List UInt8}
    (h : frame.length.toNatClampNeg ≤ scratch.length) :
    (frameIn frame scratch).payload.length = frame.length.toNatClampNeg := by
  rw [frameIn, List.length_take, Nat.min_eq_left h]

/-! ## What ends a session in `dispatch` -/

/-- The video codec throws at a frame of `length` bytes, or hands out a buffer with no room. -/
def VideoAnswer.Throws (answer : VideoAnswer) (length : Nat) : Prop :=
  answer.poll ≠ none ∧ (answer.buffer = .throws ∨
    ∃ capacity, answer.buffer = .buffer capacity ∧ (capacity < length ∨ answer.queueThrows = true))

theorem queueVideo_error_iff (answer : VideoAnswer) {scratch : List UInt8} {frame : FrameHeader}
    (hroom : frame.length.toNatClampNeg ≤ scratch.length) :
    (∃ e, queueVideo answer scratch frame = .error e) ↔
      answer.Throws frame.length.toNatClampNeg := by
  simp only [queueVideo, VideoAnswer.Throws, putBuffer, if_neg (Nat.not_lt.2 hroom)]
  cases answer.poll with
  | none => simp
  | some index =>
    cases answer.buffer with
    | null => simp
    | throws => simp
    | buffer capacity =>
      by_cases hcap : capacity < frame.length.toNatClampNeg
      · simp [hcap]
      · cases answer.queueThrows <;> simp [hcap]

/-! ### By stream type -/

section
variable {env : Env} {round : Nat} {frame : FrameHeader} {scratch : List UInt8}
  {queued : List AccessUnit}

theorem dispatch_audio_none (h : frame.streamType = STREAM_TYPE_AUDIO) :
    dispatch env round frame scratch ⟨none, queued⟩ = .ok ⟨none, queued⟩ := by
  rw [dispatch, if_pos h]

theorem dispatch_audio_some (h : frame.streamType = STREAM_TYPE_AUDIO) (sink : AudioStream) :
    dispatch env round frame scratch ⟨some sink, queued⟩ =
      match sink.onAudioFrame (env.audio round) scratch frame.length frame.ptsNs with
      | .error e => .error e
      | .ok sink => .ok ⟨some sink, queued⟩ := by
  unfold dispatch
  exact if_pos h

theorem dispatch_video (h : frame.streamType = STREAM_TYPE_VIDEO) (sink : Option AudioStream) :
    dispatch env round frame scratch ⟨sink, queued⟩ =
      match queueVideo (env.video round) scratch frame with
      | .error e => .error e
      | .ok unit => .ok ⟨sink, queued ++ unit.toList⟩ := by
  have haudio : frame.streamType ≠ STREAM_TYPE_AUDIO := by rw [h]; decide
  unfold dispatch
  exact (if_neg haudio).trans (if_pos h)

theorem dispatch_unknown (haudio : frame.streamType ≠ STREAM_TYPE_AUDIO)
    (hvideo : frame.streamType ≠ STREAM_TYPE_VIDEO) (c : Consumers) :
    dispatch env round frame scratch c = .ok c := by
  rw [dispatch, if_neg haudio, if_neg hvideo]

end

/-- What a frame of `length` bytes meets in a round in which nothing is thrown at it. -/
def Env.Takes (env : Env) (round length : Nat) : Prop :=
  ¬(env.video round).Throws length ∧ ¬(env.audio round).Escapes length

theorem dispatch_ok {env : Env} {round : Nat} {frame : FrameHeader} {scratch : List UInt8}
    (hroom : frame.length.toNatClampNeg ≤ scratch.length)
    (htakes : env.Takes round frame.length.toNatClampNeg) (c : Consumers) :
    ∃ c', dispatch env round frame scratch c = .ok c' := by
  obtain ⟨sink, queued⟩ := c
  by_cases haudio : frame.streamType = STREAM_TYPE_AUDIO
  · cases sink with
    | none => exact ⟨_, dispatch_audio_none haudio⟩
    | some sink =>
      rw [dispatch_audio_some haudio]
      cases hcall : sink.onAudioFrame (env.audio round) scratch frame.length frame.ptsNs with
      | ok sink' => exact ⟨_, rfl⟩
      | error e =>
        have hescapes := (sink.onAudioFrame_error_iff _ frame.ptsNs hroom).1 ⟨e, hcall⟩
        exact absurd hescapes.2 htakes.2
  · by_cases hvideo : frame.streamType = STREAM_TYPE_VIDEO
    · rw [dispatch_video hvideo]
      cases hqueue : queueVideo (env.video round) scratch frame with
      | ok unit => exact ⟨_, rfl⟩
      | error e => exact absurd ((queueVideo_error_iff _ hroom).1 ⟨e, hqueue⟩) htakes.1
    · exact ⟨_, dispatch_unknown haudio hvideo _⟩

end PadPlay.Device.VideoStream
