import PadPlay.Device.Delivery

/-!
# Audio next to video

Audio frames are handled on the thread that also reads video frames. Two runs of one session on the
same bytes, with an audio sink and without, are compared round by round: they queue the same video
and end in the same way exactly when no audio frame meets an input buffer that throws or has no room
for it (`loop_isolated_iff`, `audio_isolated_iff`).
-/

namespace PadPlay.Device.VideoStream

open PadPlay.Lib PadPlay.Device.DataInput PadPlay.Device.Protocol
open PadPlay.Transport (SendCall wireOf)

/-! ## One round of the loop -/

section
variable {env : Env} {input : ByteSource} {scratch : List UInt8} {consumers : Consumers}
  {obtained : List DemuxedFrame} {rounds : Nat}

theorem loop_stopped (h : env.running rounds = false) :
    loop env ⟨input, scratch, consumers, obtained, rounds⟩ =
      (.stopped, ⟨input, scratch, consumers, obtained, rounds⟩) := by
  rw [loop, if_neg (by simp [h])]

theorem loop_reading {e : Throwable} (h : env.running rounds = true)
    (hnext : (nextFrame scratch).run input = .error e) :
    loop env ⟨input, scratch, consumers, obtained, rounds⟩ =
      (.reading e, ⟨input, scratch, consumers, obtained, rounds + 1⟩) := by
  rw [loop, if_pos h]
  split
  · next h' => rw [hnext] at h'; cases h'; rfl
  · next h' => rw [hnext] at h'; cases h'

theorem loop_dispatch {frame : FrameHeader} {scratch' : List UInt8} {input' : ByteSource}
    (h : env.running rounds = true)
    (hnext : (nextFrame scratch).run input = .ok ((frame, scratch'), input')) :
    loop env ⟨input, scratch, consumers, obtained, rounds⟩ =
      match dispatch env rounds frame scratch' consumers with
      | .error e => (.dispatch e,
          ⟨input', scratch', consumers, obtained ++ [frameIn frame scratch'], rounds + 1⟩)
      | .ok consumers => loop env
          ⟨input', scratch', consumers, obtained ++ [frameIn frame scratch'], rounds + 1⟩ := by
  rw [loop, if_pos h]
  split
  · next h' => rw [hnext] at h'; cases h'
  · next h' => rw [hnext] at h'; cases h'; rfl

end

theorem loop_rounds (env : Env) (l : Loop) :
    l.rounds ≤ (loop env l).2.rounds ∧
      ∀ e, (loop env l).1 = .dispatch e → l.rounds < (loop env l).2.rounds := by
  fun_induction loop env l with
  | case1 l hrun rounds e hnext => exact ⟨Nat.le_succ _, fun _ h => by cases h⟩
  | case2 l hrun rounds frame scratch input hnext obtained e he =>
    exact ⟨Nat.le_succ _, fun _ _ => Nat.lt_succ_self _⟩
  | case3 l hrun rounds frame scratch input hnext obtained consumers hdispatch ih =>
    exact ⟨Nat.le_trans (Nat.le_succ _) ih.1,
      fun _ _ => Nat.lt_of_lt_of_le (Nat.lt_succ_self _) ih.1⟩
  | case4 l hrun => exact ⟨Nat.le_refl _, fun _ h => by cases h⟩

/-! ## Two runs -/

/-- Two runs queued the same video and ended in the same round, in the same way. -/
structure SameVideo (r r₀ : SessionEnd × Loop) : Prop where
  queued : r.2.consumers.queued = r₀.2.consumers.queued
  ended : r.1 = r₀.1
  rounds : r.2.rounds = r₀.2.rounds

/-- No audio frame that the loop reaches from a given round on, with or without a decoder attached,
meets an input buffer that throws or has no room for it. The loop gets past a video frame unless the
video codec throws at it. -/
def AudioFits (env : Env) : Bool → Nat → List DemuxedFrame → Prop
  | _, _, [] => True
  | codec, round, f :: frames =>
    env.running round = true →
      if f.streamType = STREAM_TYPE_AUDIO then
        let attached := codec && !(env.audio round).stopped
        ¬(attached = true ∧ (env.audio round).Escapes f.payload.length) ∧
          AudioFits env attached (round + 1) frames
      else if f.streamType = STREAM_TYPE_VIDEO then
        ¬(env.video round).Throws f.payload.length → AudioFits env codec (round + 1) frames
      else AudioFits env codec (round + 1) frames

/-- **Isolation, from any round on**: by induction on the frames the readers give. -/
theorem loop_isolated_iff (env : Env) (scratch : List UInt8) (input : ByteSource) :
    ∀ (sink : AudioStream) (queued : List AccessUnit) (obtained : List DemuxedFrame) (rounds : Nat),
    SameVideo (loop env ⟨input, scratch, ⟨some sink, queued⟩, obtained, rounds⟩)
        (loop env ⟨input, scratch, ⟨none, queued⟩, obtained, rounds⟩) ↔
      AudioFits env sink.codec rounds (readFrames scratch input).1 := by
  fun_induction readFrames scratch input with
  | case1 scratch input e hnext =>
    intro sink queued obtained rounds
    refine ⟨fun _ => trivial, ?_⟩
    intro _
    cases hrun : env.running rounds with
    | false => rw [loop_stopped hrun, loop_stopped hrun]; exact ⟨rfl, rfl, rfl⟩
    | true => rw [loop_reading hrun hnext, loop_reading hrun hnext]; exact ⟨rfl, rfl, rfl⟩
  | case2 scratch input frame scratch' input' hnext frames e hframes ih =>
    intro sink queued obtained rounds
    rw [hframes] at ih
    have hroom := nextFrame_room hnext
    have hlen := frameIn_length hroom
    have htype : (frameIn frame scratch').streamType = frame.streamType := rfl
    cases hrun : env.running rounds with
    | false =>
      rw [loop_stopped hrun, loop_stopped hrun]
      rw [AudioFits, hrun]
      exact ⟨fun _ h => Bool.noConfusion h, fun _ => ⟨rfl, rfl, rfl⟩⟩
    | true =>
      rw [loop_dispatch hrun hnext, loop_dispatch hrun hnext]
      simp only [AudioFits, hrun, htype, hlen, true_implies]
      by_cases haudio : frame.streamType = STREAM_TYPE_AUDIO
      · rw [dispatch_audio_none haudio, dispatch_audio_some haudio, if_pos haudio]
        have herror := sink.onAudioFrame_error_iff (env.audio rounds) frame.ptsNs hroom
        cases hcall : sink.onAudioFrame (env.audio rounds) scratch' frame.length frame.ptsNs with
        | error e =>
          -- only the run with the sink ends here
          have hescapes := herror.1 ⟨e, hcall⟩
          refine ⟨?_, fun h => absurd hescapes h.1⟩
          intro hsame
          have hlater := (loop_rounds env _).2 e hsame.ended.symm
          rw [← hsame.rounds] at hlater
          exact absurd hlater (Nat.lt_irrefl _)
        | ok sink' =>
          have hfine : ¬(sink.attached (env.audio rounds) = true ∧
              (env.audio rounds).Escapes frame.length.toNatClampNeg) := by
            intro h
            obtain ⟨e, he⟩ := herror.2 h
            rw [hcall] at he
            cases he
          have hcodec := AudioStream.onAudioFrame_codec hcall
          refine (ih sink' _ _ _).trans ?_
          rw [hcodec]
          constructor
          · intro hfits
            exact ⟨hfine, hfits⟩
          · intro hfits
            exact hfits.2
      · rw [if_neg haudio]
        by_cases hvideo : frame.streamType = STREAM_TYPE_VIDEO
        · rw [dispatch_video hvideo, dispatch_video hvideo, if_pos hvideo]
          have herror := queueVideo_error_iff (env.video rounds) hroom
          cases hqueue : queueVideo (env.video rounds) scratch' frame with
          | error e =>
            have hthrows := herror.1 ⟨e, hqueue⟩
            constructor
            · intro _ hno
              exact absurd hthrows hno
            · intro _
              exact ⟨rfl, rfl, rfl⟩
          | ok unit =>
            have hfine : ¬(env.video rounds).Throws frame.length.toNatClampNeg := by
              intro h
              obtain ⟨e, he⟩ := herror.2 h
              rw [hqueue] at he
              cases he
            refine (ih sink _ _ _).trans ?_
            constructor
            · intro hfits _
              exact hfits
            · intro hfits
              exact hfits hfine
        · rw [dispatch_unknown haudio hvideo, dispatch_unknown haudio hvideo, if_neg hvideo]
          exact ih sink _ _ _

/-! ## Two sessions -/

def SessionRun.result (run : SessionRun) : SessionEnd × Loop := (run.ended, run.loop)

/-- The audio frames of a session fit: those the readers give behind the header, if the session gets
as far as its loop, and with a decoder attached if `onStreamHeader` attaches one. -/
def AudioHarmless (env : Env) (sink : AudioStream) (input : ByteSource) : Prop :=
  match readStreamHeader.run input with
  | .error _ => True
  | .ok (header, rest) =>
    env.surface = true → env.configureCodec = .started →
      AudioFits env (sink.onStreamHeader env.audioConfigure header).codec 0
        (readFrames (List.replicate SCRATCH_BYTES 0) rest).1

theorem session_isolated_iff {env : Env} (sink : AudioStream) {input rest : ByteSource}
    {header : StreamHeader} (hheader : readStreamHeader.run input = .ok (header, rest))
    (hsurface : env.surface = true) (hstarted : env.configureCodec = .started) :
    SameVideo (session env (some sink) input).result (session env none input).result ↔
      AudioFits env (sink.onStreamHeader env.audioConfigure header).codec 0
        (readFrames (List.replicate SCRATCH_BYTES 0) rest).1 := by
  have hloop := loop_isolated_iff env (List.replicate SCRATCH_BYTES 0) rest
    (sink.onStreamHeader env.audioConfigure header) [] [] 0
  unfold session
  simp only [hheader, hsurface, hstarted]
  constructor
  · intro h
    exact hloop.1 ⟨h.queued, h.ended, h.rounds⟩
  · intro hfits
    have h := hloop.2 hfits
    exact ⟨h.queued, h.ended, h.rounds⟩

/-- **Audio is isolated from video** exactly when no audio frame meets an input buffer that throws
or has no room for it. -/
theorem audio_isolated_iff (env : Env) (sink : AudioStream) (input : ByteSource) :
    SameVideo (session env (some sink) input).result (session env none input).result ↔
      AudioHarmless env sink input := by
  unfold AudioHarmless
  cases hheader : readStreamHeader.run input with
  | error e =>
    simp only [session, hheader, iff_true]
    exact ⟨rfl, rfl, rfl⟩
  | ok r =>
    obtain ⟨header, rest⟩ := r
    cases hsurface : env.surface with
    | false =>
      simp only [session, hheader, hsurface, Bool.false_eq_true, false_implies, iff_true]
      exact ⟨rfl, rfl, rfl⟩
    | true =>
      cases hanswer : env.configureCodec with
      | notMade | notStarted =>
        simp only [session, hheader, hsurface, hanswer, reduceCtorEq, false_implies, implies_true,
          iff_true]
        exact ⟨rfl, rfl, rfl⟩
      | started =>
        simp only [true_implies]
        exact session_isolated_iff sink hheader hsurface hanswer

/-- An audio packet of one byte, and a decoder whose input buffer is empty. -/
theorem audio_buffer_too_small :
    let h : PadPlay.Protocol.StreamHeader := ⟨1920, 1200, 60, .h264, .opus, 48000, 2, 312⟩
    let calls : List SendCall := [.audio [0xFC] 0, .video [0, 0, 0, 1] 16666667 true]
    let env : Env := ⟨true, .started, fun _ => true, fun _ => ⟨some 0, .buffer 65536, false⟩,
      fun _ => ⟨false, some 0, .buffer 0, none⟩, .configured⟩
    let sink : AudioStream := ⟨true, false, none, .waiting, []⟩
    let input : ByteSource := ⟨h.encode ++ wireOf calls, fun _ => 0, .closed⟩
    ¬SameVideo (session env (some sink) input).result (session env none input).result := by
  intro h calls env sink input hsame
  obtain ⟨rest, hread, hcons⟩ := parses_readStreamHeader h input (wireOf calls) rfl
  have hrest : rest.bytes =
      (calls.map SendCall.frame).flatMap PadPlay.Protocol.Frame.encode ++ [] := by
    rw [hcons.bytes, List.drop_left, List.append_nil, wireOf_eq]
  obtain ⟨scratch', rest', hframes, -, -⟩ :=
    readFrames_append _ (List.replicate SCRATCH_BYTES 0) rest [] (by decide) hrest
  have hfits := (session_isolated_iff sink hread rfl rfl).1 hsame
  rw [hframes] at hfits
  refine (hfits rfl).1 ⟨by decide, by decide, .inr ⟨0, by decide, rfl⟩⟩

end PadPlay.Device.VideoStream
