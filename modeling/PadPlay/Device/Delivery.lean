import PadPlay.Transport.Sender
import PadPlay.Device.Dispatch

/-!
# From the sender to the demultiplexer

What the loop of a session obtains, against what the host's `Sender` was asked to send.
`readFrames` is the reading half of the loop on its own: it obtains every whole frame at the front
of a stream (`readFrames_append`), and of a truncated stream a prefix of what the whole stream gives
(`readFrames_prefix`). The loop obtains a prefix of it (`loop_obtained`), and goes on to the end of
the stream when nothing but the stream can end it (`loop_reads`); both sides meet in
`stream_delivered`.
-/

namespace PadPlay.Device.VideoStream

open PadPlay.Lib PadPlay.Device.DataInput PadPlay.Device.Protocol
open PadPlay.Protocol (Frame)
open PadPlay.Transport (SendCall Sender SendError sendAll wireOf)

/-! ## Reading one frame -/

def receivedFrame (f : Frame) : DemuxedFrame where
  streamType := Int32.ofNat f.streamType.toU8.toNat
  payload := f.payload
  ptsNs := Int64.ofNat f.ptsNs.toNat
  keyframe := f.keyframe

theorem stable_nextFrame (scratch : List UInt8) : Stable (nextFrame scratch) :=
  stable_readFrameHeader.bind fun _ =>
    (stable_readFully (le_makeRoom scratch _)).bind fun _ => .pure _

theorem parses_nextFrame (scratch : List UInt8) {f : Frame}
    (hlen : f.payload.length ≤ maxFrameBytes) :
    ∃ frame scratch', Parses (nextFrame scratch) f.encode (frame, scratch') ∧
      frameIn frame scratch' = receivedFrame f := by
  have hmax : maxFrameBytes = 8388608 := by decide
  have hlength : f.header.length.toNat = f.payload.length := by
    simp only [Frame.header, UInt32.toNat_ofNat']
    omega
  have hclamp := receivedFrameHeader_length hlen
  have hheader := parses_readFrameHeader f.header (hlength ▸ hlen)
  have hpayload := parses_readFully hclamp (le_makeRoom scratch f.payload.length)
  refine ⟨receivedFrameHeader f.header,
    f.payload ++ (makeRoom scratch f.payload.length).drop f.payload.length, ?_, ?_⟩
  · rw [Frame.encode, ← List.append_nil f.payload]
    refine hheader.bind (Parses.bind ?_ (.pure _))
    simpa [hclamp] using hpayload
  · rw [frameIn, hclamp, List.take_left]
    rfl

/-! ## Reading frames until the stream breaks off -/

/-- The frames a stream holds for the readers of the loop, and the error that ends them. -/
def readFrames (scratch : List UInt8) (input : ByteSource) : List DemuxedFrame × Throwable :=
  match _hnext : (nextFrame scratch).run input with
  | .error e => ([], e)
  | .ok ((frame, scratch), input) =>
    let (frames, e) := readFrames scratch input
    (frameIn frame scratch :: frames, e)
termination_by input.bytes.length
decreasing_by
  have := nextFrame_consumes _ _ _ _ _hnext
  omega

theorem readFrames_error {scratch : List UInt8} {input : ByteSource} {e : Throwable}
    (h : (nextFrame scratch).run input = .error e) : readFrames scratch input = ([], e) := by
  rw [readFrames]
  split
  · next h' => rw [h] at h'; cases h'; rfl
  · next h' => rw [h] at h'; cases h'

theorem readFrames_ok {scratch scratch' : List UInt8} {input input' : ByteSource}
    {frame : FrameHeader} (h : (nextFrame scratch).run input = .ok ((frame, scratch'), input')) :
    readFrames scratch input =
      (frameIn frame scratch' :: (readFrames scratch' input').1,
        (readFrames scratch' input').2) := by
  rw [readFrames]
  split
  · next h' => rw [h] at h'; cases h'
  · next h' => rw [h] at h'; cases h'; rfl

theorem readFrames_nil (scratch : List UInt8) {input : ByteSource} (h : input.bytes = []) :
    (readFrames scratch input).1 = [] := by
  cases hnext : (nextFrame scratch).run input with
  | error e => rw [readFrames_error hnext]
  | ok r =>
    have := nextFrame_consumes _ _ _ _ hnext
    simp only [h, List.length_nil] at this
    omega

/-- **Every whole frame is obtained**: by induction on the frames, each read back by
`parses_nextFrame`. -/
theorem readFrames_append (frames : List Frame) : ∀ (scratch : List UInt8) (input : ByteSource)
    (rest : List UInt8), (∀ f ∈ frames, f.payload.length ≤ maxFrameBytes) →
    input.bytes = frames.flatMap Frame.encode ++ rest →
    ∃ scratch' input', (readFrames scratch input).1 =
        frames.map receivedFrame ++ (readFrames scratch' input').1 ∧
      input'.bytes = rest ∧ input'.fate = input.fate := by
  induction frames with
  | nil => exact fun scratch input rest _ hbytes => ⟨scratch, input, by simp, hbytes, rfl⟩
  | cons f frames ih =>
    intro scratch input rest hlen hbytes
    obtain ⟨frame, scratch₁, hparse, hframe⟩ :=
      parses_nextFrame scratch (hlen f (List.mem_cons_self ..))
    rw [List.flatMap_cons, List.append_assoc] at hbytes
    obtain ⟨input₁, hrun, hcons⟩ := hparse input _ hbytes
    obtain ⟨scratch', input', hframes, hrest, hfate⟩ :=
      ih scratch₁ input₁ rest (fun g hg => hlen g (List.mem_cons_of_mem _ hg))
        (by rw [hcons.bytes, hbytes, List.drop_left])
    refine ⟨scratch', input', ?_, hrest, hfate.trans hcons.fate⟩
    rw [readFrames_ok hrun, hframe, hframes, List.map_cons, List.cons_append]

/-- **Truncation** takes frames away from the end only. -/
theorem readFrames_prefix {scratch : List UInt8} {s₁ s₂ : ByteSource}
    (hpre : s₁.bytes <+: s₂.bytes) (hclosed : s₂.fate = .closed) :
    (readFrames scratch s₁).1 <+: (readFrames scratch s₂).1 := by
  fun_induction readFrames scratch s₁ generalizing s₂ with
  | case1 => exact List.nil_prefix
  | case2 scratch s₁ frame scratch' s₁' hnext frames e hframes ih =>
    obtain ⟨s₂', hnext₂, hclosed', hcase⟩ :=
      stable_nextFrame scratch s₁ s₂ _ s₁' hpre hclosed hnext
    have hpre' : s₁'.bytes <+: s₂'.bytes := by
      rcases hcase with hnil | ⟨n, -, h₁, h₂⟩
      · rw [hnil]; exact List.nil_prefix
      · rw [h₁.bytes, h₂.bytes]; exact hpre.drop n
    have hrest := ih hpre' hclosed'
    rw [hframes] at hrest
    rw [readFrames_ok hnext₂]
    exact List.cons_prefix_cons.2 ⟨rfl, hrest⟩

/-! ## The loop obtains what its readers read -/

/-- **The loop** obtains a prefix of the frames its readers give, and all of them when it is a
reader that ends it. -/
theorem loop_obtained (env : Env) (l : Loop) :
    ∃ got, (loop env l).2.obtained = l.obtained ++ got ∧
      got <+: (readFrames l.scratch l.input).1 ∧
      ∀ e, (loop env l).1 = .reading e → got = (readFrames l.scratch l.input).1 := by
  fun_induction loop env l with
  | case1 l hrun rounds e hnext =>
    exact ⟨[], by simp, List.nil_prefix, fun _ _ => by rw [readFrames_error hnext]⟩
  | case2 l hrun rounds frame scratch input hnext obtained e he =>
    rw [readFrames_ok hnext]
    exact ⟨[frameIn frame scratch], rfl, List.cons_prefix_cons.2 ⟨rfl, List.nil_prefix⟩, nofun⟩
  | case3 l hrun rounds frame scratch input hnext obtained consumers hdispatch ih =>
    obtain ⟨got, hgot, hpre, hall⟩ := ih
    rw [readFrames_ok hnext]
    refine ⟨frameIn frame scratch :: got, ?_, List.cons_prefix_cons.2 ⟨rfl, hpre⟩, fun e he => ?_⟩
    · rw [hgot]
      simp only [obtained, List.append_assoc, List.singleton_append]
    · rw [hall e he]
  | case4 l hrun => exact ⟨[], by simp, List.nil_prefix, nofun⟩

/-- **The loop goes on** while it is not told to stop and nothing is thrown at the frames its
readers give: the stream ends it. -/
theorem loop_reads (env : Env) (l : Loop) (hrunning : ∀ k, env.running k = true)
    (htakes : ∀ k f, (readFrames l.scratch l.input).1[k]? = some f →
      env.Takes (l.rounds + k) f.payload.length) :
    ∃ e, (loop env l).1 = .reading e := by
  fun_induction loop env l with
  | case1 l hrun rounds e hnext => exact ⟨e, rfl⟩
  | case2 l hrun rounds frame scratch input hnext obtained e he =>
    have hroom := nextFrame_room hnext
    have hfirst := htakes 0 (frameIn frame scratch) (by rw [readFrames_ok hnext]; rfl)
    rw [frameIn_length hroom] at hfirst
    obtain ⟨c', hc⟩ := dispatch_ok hroom hfirst l.consumers
    rw [Nat.add_zero, he] at hc
    cases hc
  | case3 l hrun rounds frame scratch input hnext obtained consumers hdispatch ih =>
    apply ih
    intro k f hf
    have hlater := htakes (k + 1) f (by rw [readFrames_ok hnext]; exact hf)
    rwa [← Nat.add_assoc, Nat.add_right_comm] at hlater
  | case4 l hrun => exact absurd (hrunning _) hrun

/-- The part of a stream behind its header, for a header that could be read. -/
theorem session_obtained (env : Env) (audioSink : Option AudioStream) (input : ByteSource) :
    (∃ e, readStreamHeader.run input = .error e ∧
      (session env audioSink input).header = none ∧
      (session env audioSink input).ended = .header e ∧
      (session env audioSink input).loop.obtained = []) ∨
    ∃ header rest, readStreamHeader.run input = .ok (header, rest) ∧
      (session env audioSink input).header = some header ∧
      (session env audioSink input).loop.obtained <+:
        (readFrames (List.replicate SCRATCH_BYTES 0) rest).1 ∧
      ∀ e, (session env audioSink input).ended = .reading e →
        (session env audioSink input).loop.obtained =
          (readFrames (List.replicate SCRATCH_BYTES 0) rest).1 := by
  unfold session
  split
  · next e h => exact .inl ⟨e, h, rfl, rfl, rfl⟩
  · next header rest h =>
    refine .inr ⟨header, rest, h, ?_⟩
    split
    · exact ⟨rfl, List.nil_prefix, nofun⟩
    · split
      · exact ⟨rfl, List.nil_prefix, nofun⟩
      · exact ⟨rfl, List.nil_prefix, nofun⟩
      · obtain ⟨got, hgot, hpre, hall⟩ := loop_obtained env (start (audioSink.map fun sink =>
          sink.onStreamHeader env.audioConfigure header) rest)
        rw [start, List.nil_append] at hgot
        refine ⟨rfl, ?_, fun e he => ?_⟩
        · exact hgot ▸ hpre
        · exact hgot.trans (hall e he)

/-! ## End to end -/

def receivedFrames (calls : List SendCall) : List DemuxedFrame :=
  calls.map fun call => receivedFrame call.frame

theorem wireOf_eq (calls : List SendCall) :
    wireOf calls = (calls.map SendCall.frame).flatMap Frame.encode := by
  rw [wireOf, List.flatMap_map]

theorem wireOf_take (bs : List UInt8) (calls : List SendCall) (k : Nat) :
    bs ++ wireOf (calls.take k) <+: bs ++ wireOf calls := by
  rw [List.prefix_append_right_inj]
  exact ⟨wireOf (calls.drop k), by simp only [wireOf, ← List.flatMap_append,
    List.take_append_drop]⟩

theorem receivedFrames_eq (calls : List SendCall) :
    receivedFrames calls = (calls.map SendCall.frame).map receivedFrame := by
  simp [receivedFrames]

/-- The call a frame comes from, for the front of what was sent. -/
theorem exists_call {calls : List SendCall} {n k : Nat} {frames : List DemuxedFrame}
    {f : DemuxedFrame} (hframes : frames <+: receivedFrames (calls.take n))
    (hf : frames[k]? = some f) : ∃ call, calls[k]? = some call ∧ receivedFrame call.frame = f := by
  obtain ⟨rest, hrest⟩ := hframes
  have hall : (frames ++ rest)[k]? = some f := by
    rw [List.getElem?_append_left (List.getElem?_eq_some_iff.1 hf).1]
    exact hf
  rw [hrest, receivedFrames, List.getElem?_map] at hall
  obtain ⟨call, hcall, rfl⟩ := Option.map_eq_some_iff.1 hall
  rw [List.getElem?_take] at hcall
  split at hcall
  · exact ⟨call, hcall, rfl⟩
  · cases hcall

/-- Opus packets have no keyframe concept. -/
theorem receivedFrames_audio {calls : List SendCall} {f : DemuxedFrame}
    (hf : f ∈ receivedFrames calls) (haudio : f.streamType = STREAM_TYPE_AUDIO) :
    f.keyframe = false := by
  obtain ⟨call, -, rfl⟩ := List.mem_map.1 hf
  cases call with
  | video payload ptsNs keyframe => cases haudio
  | audio payload ptsNs => rfl

/-- What the device makes of any piece of a stream of whole frames: the header is the one sent, the
frames are a prefix of the ones sent, and whole frames at its front are among those its readers
read. -/
theorem read_piece {h : PadPlay.Protocol.StreamHeader} {calls : List SendCall}
    (hlen : ∀ call ∈ calls, call.frame.payload.length ≤ maxFrameBytes) {input rest : ByteSource}
    {header : StreamHeader} (hpre : input.bytes <+: h.encode ++ wireOf calls)
    (hheader : readStreamHeader.run input = .ok (header, rest)) (scratch : List UInt8) :
    header = receivedHeader h ∧ (readFrames scratch rest).1 <+: receivedFrames calls ∧
      ∀ k, (h.encode ++ wireOf (calls.take k)).length ≤ input.bytes.length →
        receivedFrames (calls.take k) <+: (readFrames scratch rest).1 := by
  have hframes : ∀ f ∈ calls.map SendCall.frame, f.payload.length ≤ maxFrameBytes := by
    simpa using hlen
  -- the complete stream, on a connection that is closed after it
  let whole : ByteSource := ⟨h.encode ++ wireOf calls, input.cuts, .closed⟩
  obtain ⟨whole', hwhole, hcons⟩ := parses_readStreamHeader h whole (wireOf calls) rfl
  have hbytes : whole'.bytes = (calls.map SendCall.frame).flatMap Frame.encode ++ [] := by
    rw [hcons.bytes, List.drop_left, List.append_nil, wireOf_eq]
  obtain ⟨scratch', input', hall, hnil, -⟩ :=
    readFrames_append _ scratch whole' [] hframes hbytes
  rw [readFrames_nil scratch' hnil, List.append_nil, ← receivedFrames_eq] at hall
  obtain ⟨whole'', hwhole', hclosed, hcase⟩ :=
    stable_readStreamHeader input whole header rest hpre rfl hheader
  rw [hwhole] at hwhole'
  cases hwhole'
  have hrest : rest.bytes <+: whole'.bytes := by
    rcases hcase with hnil | ⟨n, -, h₁, h₂⟩
    · rw [hnil]; exact List.nil_prefix
    · rw [h₁.bytes, h₂.bytes]; exact hpre.drop n
  refine ⟨rfl, hall ▸ readFrames_prefix hrest hclosed, ?_⟩
  intro k hk
  obtain ⟨t, ht⟩ := List.prefix_of_prefix_length_le (wireOf_take ..) hpre hk
  rw [List.append_assoc] at ht
  obtain ⟨rest', hrest', hcons'⟩ := parses_readStreamHeader h input _ ht.symm
  rw [hheader] at hrest'
  cases hrest'
  have hrest' : rest.bytes = ((calls.take k).map SendCall.frame).flatMap Frame.encode ++ t := by
    rw [hcons'.bytes, ← ht, List.drop_left, wireOf_eq]
  obtain ⟨scratch₂, input₂, hread, -, -⟩ := readFrames_append _ scratch rest t
    (fun f hf => hframes f (List.map_subset _ (List.take_subset k calls) hf)) hrest'
  rw [hread, ← receivedFrames_eq]
  exact List.prefix_append ..

/-- Nothing but the stream ends the session: there is a surface and a codec, the app does not stop,
and nothing is thrown at a frame that is sent, in the round it is for. -/
structure Undisturbed (env : Env) (calls : List SendCall) : Prop where
  surface : env.surface = true
  started : env.configureCodec = .started
  running : ∀ k, env.running k = true
  takes : ∀ k call, calls[k]? = some call → env.Takes k call.frame.payload.length

/-- What the device obtained from the bytes that arrived, against what was sent. `sending` is the
outcome on the host's side. -/
structure Delivers (h : PadPlay.Protocol.StreamHeader) (calls : List SendCall)
    (sending : Except SendError Unit × Sender) (arrived : List UInt8) (env : Env)
    (run : SessionRun) : Prop where
  header : ∀ header, run.header = some header → header = receivedHeader h
  headed : h.encode.length ≤ arrived.length → run.header = some (receivedHeader h)
  /-- behind the header it is the stream that ends the loop -/
  ended : Undisturbed env calls → h.encode.length ≤ arrived.length → ∃ e, run.ended = .reading e
  /-- a prefix of the frames sent: the completed calls, and the one that failed -/
  frames : ∃ sent, sending.2.framesSent = UInt64.ofNat sent ∧
    (sending.1 = .ok () → sent = calls.length) ∧
    run.loop.obtained <+: receivedFrames (calls.take (sent + 1))
  /-- every frame whose last byte arrived, once the stream has ended the loop -/
  whole : ∀ e, run.ended = .reading e → ∀ k,
    (h.encode ++ wireOf (calls.take k)).length ≤ arrived.length →
    receivedFrames (calls.take k) <+: run.loop.obtained
  complete : ∀ e, run.ended = .reading e → sending.1 = .ok () →
    arrived = sending.2.stream.wire → run.loop.obtained = receivedFrames calls
  audio : ∀ f ∈ run.loop.obtained, f.streamType = STREAM_TYPE_AUDIO → f.keyframe = false
  counters : sending.1 = .ok () →
    sending.2.bytesSent = UInt64.ofNat sending.2.stream.wire.length ∧
      sending.2.framesSent = UInt64.ofNat calls.length

/-- **The stream is delivered**: whatever the socket does to the writes and the reads, and wherever
the stream breaks off. -/
theorem stream_delivered (h : PadPlay.Protocol.StreamHeader) (calls : List SendCall)
    (hlen : ∀ call ∈ calls, call.frame.payload.length ≤ maxFrameBytes)
    (answers : Nat → WriteAnswer) (n : Nat) (cuts : Nat → Nat) (fate : Fate) (env : Env)
    (audioSink : Option AudioStream) :
    Delivers h calls (PadPlay.Transport.transmit answers h calls)
      ((PadPlay.Transport.transmit answers h calls).2.stream.wire.take n) env
      (session env audioSink
        ⟨(PadPlay.Transport.transmit answers h calls).2.stream.wire.take n, cuts, fate⟩) := by
  obtain ⟨sent, hsent⟩ := PadPlay.Transport.transmit_spec answers h calls
  generalize PadPlay.Transport.transmit answers h calls = sending at hsent ⊢
  generalize harrived : sending.2.stream.wire.take n = arrived
  have hpre : arrived <+: h.encode ++ wireOf (calls.take (sent + 1)) :=
    harrived ▸ (List.take_prefix ..).trans hsent.wire
  have hlen' : ∀ call ∈ calls.take (sent + 1), call.frame.payload.length ≤ maxFrameBytes :=
    fun call hcall => hlen call (List.take_subset _ _ hcall)
  have hheaded : h.encode.length ≤ arrived.length → ∃ rest,
      readStreamHeader.run ⟨arrived, cuts, fate⟩ = .ok (receivedHeader h, rest) := by
    intro hlong
    obtain ⟨t, ht⟩ := List.prefix_of_prefix_length_le (List.prefix_append ..) hpre hlong
    obtain ⟨rest, hread, -⟩ := parses_readStreamHeader h ⟨arrived, cuts, fate⟩ t ht.symm
    exact ⟨rest, hread⟩
  rcases session_obtained env audioSink ⟨arrived, cuts, fate⟩ with
    ⟨e, hfails, hheader, hended, hnone⟩ | ⟨header, rest, hread, hheader, hobtained, hall⟩
  · -- no header arrived, so no frame was obtained
    have hshort : ¬h.encode.length ≤ arrived.length := by
      intro hlong
      obtain ⟨rest, hread⟩ := hheaded hlong
      rw [hfails] at hread
      cases hread
    refine ⟨?_, fun hlong => absurd hlong hshort, fun _ hlong => absurd hlong hshort,
      ⟨sent, hsent.frames, fun h => (hsent.ok h).1, ?_⟩, ?_, ?_, ?_, ?_⟩
    · simp [hheader]
    · simp [hnone]
    · simp [hended]
    · simp [hended]
    · simp [hnone]
    · exact fun hok => ⟨(hsent.ok hok).2.2, (hsent.ok hok).1 ▸ hsent.frames⟩
  · obtain ⟨hsame, hframes, -⟩ :=
      read_piece hlen' hpre hread (List.replicate SCRATCH_BYTES 0)
    have hpre' := hobtained.trans hframes
    have hwhole := (read_piece hlen (hpre.trans (wireOf_take ..)) hread
      (List.replicate SCRATCH_BYTES 0)).2.2
    refine ⟨?_, fun _ => hsame ▸ hheader, ?_,
      ⟨sent, hsent.frames, fun h => (hsent.ok h).1, hpre'⟩, ?_, ?_, ?_, ?_⟩
    · rintro header' h'
      rw [hheader] at h'
      cases h'
      exact hsame
    · intro hfine _
      simp only [session, hread, hfine.surface, hfine.started, Bool.not_true,
        Bool.false_eq_true, if_false]
      apply loop_reads _ _ hfine.running
      intro k f hf
      obtain ⟨call, hcall, rfl⟩ := exists_call hframes hf
      rw [start, Nat.zero_add]
      exact hfine.takes k call hcall
    · intro e he k hk
      rw [hall e he]
      exact hwhole k hk
    · intro e he hok hcomplete
      have hk := hwhole calls.length (by rw [List.take_length, hcomplete, (hsent.ok hok).2.1])
      rw [List.take_length, ← hall e he] at hk
      have hp := hpre'
      rw [(hsent.ok hok).1, List.take_of_length_le (Nat.le_succ _)] at hp
      exact hp.eq_of_length (Nat.le_antisymm hp.length_le hk.length_le)
    · intro f hf haudio
      exact receivedFrames_audio (hpre'.subset hf) haudio
    · exact fun hok => ⟨(hsent.ok hok).2.2, (hsent.ok hok).1 ▸ hsent.frames⟩

/-- A socket that moves one byte at a time, and breaks inside the second frame. -/
theorem stream_delivered_bytewise :
    let h : PadPlay.Protocol.StreamHeader := ⟨1920, 1200, 60, .h264, .opus, 48000, 2, 312⟩
    let calls : List SendCall := [.video [0, 0, 0, 1] 16666667 true, .audio [] 20000000]
    let sending := PadPlay.Transport.transmit (fun _ => ⟨0, .accepted 0⟩) h calls
    let env : Env := ⟨true, .started, fun _ => true, fun _ => ⟨some 0, .buffer 4, false⟩,
      fun _ => ⟨false, none, .null, none⟩, .configured⟩
    Undisturbed env calls ∧ Delivers h calls sending (sending.2.stream.wire.take 50) env
      (session env none ⟨sending.2.stream.wire.take 50, fun _ => 0, .broken⟩) := by
  intro h calls sending env
  refine ⟨⟨rfl, rfl, fun _ => rfl, ?_⟩, stream_delivered h calls (by decide) _ 50 _ _ env none⟩
  intro k call hcall
  have hlength : call.frame.payload.length ≤ 4 := by
    rcases List.mem_pair.1 (List.mem_of_getElem? hcall) with rfl | rfl <;> decide
  constructor
  · rintro ⟨-, hthrows | ⟨capacity, hbuffer, hsmall | hqueue⟩⟩
    · cases hthrows
    · cases hbuffer
      omega
    · cases hqueue
  · rintro ⟨hindex, -⟩
    have hnone : ¬0 ≤ (none : Option Int32).getD (-1) := by decide
    exact hnone hindex

end PadPlay.Device.VideoStream
