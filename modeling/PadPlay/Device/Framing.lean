import Mathlib.Logic.Relation
import PadPlay.Device.Headers
import PadPlay.Device.Isolation

/-!
# The loop keeps its bounds and its place

`VideoStream.session` on bytes that nobody vouches for. The headers it reads lie at the offsets
`boundary` computes from the length fields alone, whatever is done with the frames between them
(`Heads.inStep`); the scratch buffer has room for every frame and never outgrows the largest length
`readFrameHeader` takes; and a round that does not throw takes its bytes from the stream, so that
the loop ends with it (`session_framed`).
-/

namespace PadPlay.Device

open PadPlay.Lib

/-- The exceptions that are `IOException`s. -/
def Throwable.isIOException : Throwable → Bool
  | .io _ | .eof _ | .socket => true
  | .bufferOverflow | .indexOutOfBounds | .illegalState => false

namespace DataInput

/-- Nothing but an `IOException` leaves `m`. -/
def RaisesIO {α : Type} (m : DataInput α) : Prop :=
  ∀ s e, m.run s = .error e → e.isIOException = true

theorem RaisesIO.pure {α : Type} (a : α) : RaisesIO (pure a) := by
  intro s e h
  cases h

theorem RaisesIO.bind {α β : Type} {m : DataInput α} {f : α → DataInput β} (hm : RaisesIO m)
    (hf : ∀ a, RaisesIO (f a)) : RaisesIO (m >>= f) := by
  intro s e h
  rw [StateT.run_bind] at h
  cases hrun : m.run s with
  | error e' =>
    rw [hrun] at h
    cases h
    exact hm s e hrun
  | ok r =>
    rw [hrun] at h
    exact hf r.1 r.2 e h

theorem raisesIO_require (c : Prop) [Decidable c] (message : String) :
    RaisesIO (require c (.io message)) := by
  intro s e h
  unfold require at h
  split at h
  · cases h
  · cases h
    rfl

private theorem throwable_isIOException (e : ReadError) :
    (ReadError.throwable e).isIOException = true := by
  cases e <;> rfl

theorem raisesIO_readBytes (n : Nat) : RaisesIO (readBytes n) := by
  intro s e h
  simp only [readBytes, StateT.run] at h
  split at h
  · cases h
  · cases h
    exact throwable_isIOException _

theorem raisesIO_skipBytes (n : Nat) : RaisesIO (skipBytes n) := by
  intro s e h
  simp only [skipBytes, StateT.run] at h
  split at h
  · cases h
  · cases h
    exact throwable_isIOException _

end DataInput

namespace VideoStream

open PadPlay.Device.DataInput PadPlay.Device.Protocol

/-! ## Reading one frame -/

def frameLength (bs : List UInt8) : Nat := (frameHeaderOf bs).length.toNatClampNeg

/-- The frame whose header is at the front of `bs`. -/
def demuxed (bs : List UInt8) : DemuxedFrame where
  streamType := (frameHeaderOf bs).streamType
  payload := (bs.drop 16).take (frameLength bs)
  ptsNs := (frameHeaderOf bs).ptsNs
  keyframe := (frameHeaderOf bs).keyframe

/-- A frame can be read: its header is there, with a length that is taken, and so is its payload.
The two reserved bytes may be missing at an orderly end of the stream. -/
structure Available (s : ByteSource) : Prop where
  header : 14 ≤ s.bytes.length
  inRange : Plausible (frameHeaderOf s.bytes).length
  reserved : 16 ≤ s.bytes.length ∨ s.fate = .closed
  payload : frameLength s.bytes ≤ s.bytes.length - 16

theorem reads_nextFrame (scratch : List UInt8) (s : ByteSource) :
    Reads (nextFrame scratch) s 0 (Available s)
      (frameHeaderOf s.bytes, (s.bytes.drop 16).take (frameLength s.bytes) ++
        (makeRoom scratch (frameLength s.bytes)).drop (frameLength s.bytes))
      (16 + frameLength s.bytes) := by
  have hfully := @reads_readFully s 16 _ (frameHeaderOf s.bytes).length
    (le_makeRoom scratch (frameLength s.bytes))
  have hpayload := hfully.bind (f := fun scratch => pure (frameHeaderOf s.bytes, scratch)) (.pure _)
  refine ((reads_readFrameHeader s).bind hpayload).congr ?_
  constructor
  · rintro ⟨⟨hheader, hplausible, hreserved⟩, hpayload, -⟩
    exact ⟨hheader, hplausible, hreserved, hpayload⟩
  · intro h
    exact ⟨⟨h.header, h.inRange, h.reserved⟩, h.payload, trivial⟩

/-- What a round of the loop has read. -/
structure Obtained (scratch : List UInt8) (input : ByteSource) (frame : FrameHeader)
    (scratch' : List UInt8) (input' : ByteSource) : Prop where
  available : Available input
  header : frame = frameHeaderOf input.bytes
  consumed : input.Consumed (16 + frameLength input.bytes) input'
  frame : frameIn frame scratch' = demuxed input.bytes
  scratch : scratch'.length = (makeRoom scratch (frameLength input.bytes)).length

theorem nextFrame_obtained {scratch scratch' : List UInt8} {input input' : ByteSource}
    {frame : FrameHeader} (h : (nextFrame scratch).run input = .ok ((frame, scratch'), input')) :
    Obtained scratch input frame scratch' input' := by
  obtain ⟨havailable, heq, hconsumed⟩ := (reads_nextFrame scratch input).inv input (.refl _) _ _ h
  obtain ⟨rfl, rfl⟩ := Prod.mk.inj heq
  have hroom := le_makeRoom scratch (frameLength input.bytes)
  have hpayload : ((input.bytes.drop 16).take (frameLength input.bytes)).length =
      frameLength input.bytes := by
    rw [List.length_take, List.length_drop, Nat.min_eq_left havailable.payload]
  refine ⟨havailable, rfl, hconsumed, ?_, ?_⟩
  · have htake : ((input.bytes.drop 16).take (frameLength input.bytes) ++
        (makeRoom scratch (frameLength input.bytes)).drop (frameLength input.bytes)).take
          (frameLength input.bytes) = (input.bytes.drop 16).take (frameLength input.bytes) := by
      rw [List.take_append_of_le_length hpayload.ge, List.take_take, Nat.min_self]
    exact congrArg (DemuxedFrame.mk _ · _ _) htake
  · rw [List.length_append, hpayload, List.length_drop, Nat.add_sub_cancel' hroom]

theorem nextFrame_unavailable {scratch : List UInt8} {input : ByteSource} {e : Throwable}
    (h : (nextFrame scratch).run input = .error e) : ¬Available input := by
  intro havailable
  obtain ⟨input', hrun, -⟩ := (reads_nextFrame scratch input).ok havailable input (.refl _)
  rw [h] at hrun
  cases hrun

private theorem readFullyFrom_raisesIO {buffer : List UInt8} {length read : Nat}
    {input : ByteSource} {e : Throwable} (hroom : length ≤ buffer.length)
    (h : readFullyFrom buffer length read input = .error e) : e.isIOException = true := by
  fun_induction readFullyFrom buffer length read input with
  | case1 buffer read input hlt hshort => omega
  | case2 => cases h; rfl
  | case3 => cases h; rfl
  | case4 buffer read input hlt _ chunk rest hanswer ih =>
    have hle := (ByteSource.read_data hanswer).2.1
    have hlen : (writeAt buffer read chunk).length = buffer.length := writeAt_length (by omega)
    exact ih (by rw [hlen]; exact hroom) h
  | case5 => cases h

theorem raisesIO_nextFrame (scratch : List UInt8) : RaisesIO (nextFrame scratch) := by
  have hfield {α : Type} (n : Nat) (g : List UInt8 → α) :
      RaisesIO (do return g (← readBytes n)) := (raisesIO_readBytes n).bind fun _ => .pure _
  have hheader : RaisesIO readFrameHeader :=
    (hfield 4 _).bind fun _ => (raisesIO_require _ _).bind fun _ =>
    (hfield 8 _).bind fun _ => (hfield 1 _).bind fun _ => (hfield 1 _).bind fun _ =>
    (raisesIO_skipBytes 2).bind fun _ => .pure _
  refine hheader.bind fun frame => RaisesIO.bind ?_ fun _ => .pure _
  intro s e h
  exact readFullyFrom_raisesIO (le_makeRoom ..) h

/-! ## What leaves `dispatch` -/

theorem onAudioFrame_error {sink : AudioStream} {answer : AudioAnswer} {payload : List UInt8}
    {length : Int32} {ptsNs : Int64} {e : Throwable}
    (hroom : length.toNatClampNeg ≤ payload.length)
    (h : sink.onAudioFrame answer payload length ptsNs = .error e) :
    e = .illegalState ∨ e = .bufferOverflow := by
  unfold AudioStream.onAudioFrame at h
  generalize (if answer.stopped then sink.stop else sink) = s at h
  simp only [putBuffer, if_neg (Nat.not_lt.2 hroom)] at h
  split at h
  · cases h
  · split at h
    · cases h
    · split at h
      · cases h
      · cases h
        exact .inl rfl
      · next capacity _ =>
        by_cases hcap : capacity < length.toNatClampNeg
        · rw [if_pos hcap] at h
          cases h
          exact .inr rfl
        · simp only [if_neg hcap] at h
          split at h <;> cases h

theorem queueVideo_error {answer : VideoAnswer} {scratch : List UInt8} {frame : FrameHeader}
    {e : Throwable} (hroom : frame.length.toNatClampNeg ≤ scratch.length)
    (h : queueVideo answer scratch frame = .error e) :
    e = .bufferOverflow ∨
      e = .illegalState ∧ (answer.buffer = .throws ∨ answer.queueThrows = true) := by
  simp only [queueVideo, putBuffer, if_neg (Nat.not_lt.2 hroom)] at h
  split at h
  · cases h
  · split at h
    · cases h
    · next hbuffer =>
      cases h
      exact .inr ⟨rfl, .inl hbuffer⟩
    · next capacity hbuffer =>
      by_cases hcap : capacity < frame.length.toNatClampNeg
      · rw [if_pos hcap] at h
        cases h
        exact .inl rfl
      · simp only [if_neg hcap] at h
        split at h
        · next hthrows =>
          cases h
          exact .inr ⟨rfl, .inr hthrows⟩
        · cases h

/-- Neither the calls of the video codec nor the audio sink throw. -/
def Quiet (env : Env) : Prop :=
  ∀ k, (env.video k).buffer ≠ .throws ∧ (env.video k).queueThrows = false ∧
    ∀ length, ¬(env.audio k).Escapes length

/-- With room for the frame no index is out of bounds, and when codec and sink are quiet it is a
buffer too small for the frame that throws. -/
theorem dispatch_error {env : Env} {round : Nat} {frame : FrameHeader} {scratch : List UInt8}
    {c : Consumers} {e : Throwable} (hroom : frame.length.toNatClampNeg ≤ scratch.length)
    (h : dispatch env round frame scratch c = .error e) :
    e ≠ .indexOutOfBounds ∧ (Quiet env → e = .bufferOverflow) := by
  obtain ⟨sink, queued⟩ := c
  by_cases haudio : frame.streamType = STREAM_TYPE_AUDIO
  · cases sink with
    | none =>
      rw [dispatch_audio_none haudio] at h
      cases h
    | some sink =>
      rw [dispatch_audio_some haudio] at h
      cases hcall : sink.onAudioFrame (env.audio round) scratch frame.length frame.ptsNs with
      | ok sink' =>
        rw [hcall] at h
        cases h
      | error e' =>
        rw [hcall] at h
        cases h
        constructor
        · rcases onAudioFrame_error hroom hcall with rfl | rfl <;> simp
        · intro hquiet
          have hescapes := (sink.onAudioFrame_error_iff _ frame.ptsNs hroom).1 ⟨e, hcall⟩
          exact absurd hescapes.2 ((hquiet round).2.2 _)
  · by_cases hvideo : frame.streamType = STREAM_TYPE_VIDEO
    · rw [dispatch_video hvideo] at h
      cases hqueue : queueVideo (env.video round) scratch frame with
      | ok unit =>
        rw [hqueue] at h
        cases h
      | error e' =>
        rw [hqueue] at h
        cases h
        rcases queueVideo_error hroom hqueue with rfl | ⟨rfl, hthrows⟩
        · exact ⟨by simp, fun _ => rfl⟩
        · refine ⟨by simp, ?_⟩
          intro hquiet
          have hfine := hquiet round
          rcases hthrows with hbuffer | hqueues
          · exact absurd hbuffer hfine.1
          · rw [hfine.2.1] at hqueues
            cases hqueues
    · rw [dispatch_unknown haudio hvideo] at h
      cases h

/-! ## The iterations of the loop -/

/-- An iteration that goes on. -/
inductive Round (env : Env) (l : Loop) : Loop → Prop
  | mk {frame : FrameHeader} {scratch : List UInt8} {input : ByteSource} {consumers : Consumers}
      (hrun : env.running l.rounds = true)
      (hnext : (nextFrame l.scratch).run l.input = .ok ((frame, scratch), input))
      (hdispatch : dispatch env l.rounds frame scratch l.consumers = .ok consumers) :
      Round env l ⟨input, scratch, consumers, l.obtained ++ [frameIn frame scratch], l.rounds + 1⟩

/-- An iteration that is the last. -/
inductive Ends (env : Env) (l : Loop) : SessionEnd → Prop
  | stopped (hrun : env.running l.rounds = false) : Ends env l .stopped
  | reading {e : Throwable} (hrun : env.running l.rounds = true)
      (hnext : (nextFrame l.scratch).run l.input = .error e) : Ends env l (.reading e)
  | dispatch {e : Throwable} {frame : FrameHeader} {scratch : List UInt8} {input : ByteSource}
      (hrun : env.running l.rounds = true)
      (hnext : (nextFrame l.scratch).run l.input = .ok ((frame, scratch), input))
      (hdispatch : dispatch env l.rounds frame scratch l.consumers = .error e) :
      Ends env l (.dispatch e)

/-- The states the loop has at its head, when it is entered in state `l`. -/
def Heads (env : Env) (l : Loop) : Loop → Prop := Relation.ReflTransGen (Round env) l

/-- The length a header at offset `o` announces. -/
def lengthAt (bs : List UInt8) (o : Nat) : Nat := (Int32.ofNat (beAt bs o 4)).toNatClampNeg

/-- Where the header of round `k` lies, going by the length fields alone. -/
def boundary (bs : List UInt8) : Nat → Nat
  | 0 => 0
  | k + 1 => boundary bs k + (16 + lengthAt bs (boundary bs k))

theorem frameLength_drop (bs : List UInt8) (o : Nat) : frameLength (bs.drop o) = lengthAt bs o :=
  rfl

/-- What the head of the loop has of the bytes `rest` behind the stream header. -/
structure InStep (rest : ByteSource) (l : Loop) : Prop where
  place : rest.Consumed (boundary rest.bytes l.rounds) l.input
  obtained : l.obtained =
    (List.range l.rounds).map fun k => demuxed (rest.bytes.drop (boundary rest.bytes k))
  least : SCRATCH_BYTES ≤ l.scratch.length
  most : l.scratch.length ≤ maxFrameBytes
  cost : l.input.bytes.length + 14 * l.rounds ≤ rest.bytes.length

theorem InStep.start (sink : Option AudioStream) (rest : ByteSource) :
    InStep rest (VideoStream.start sink rest) := by
  have hlen : (VideoStream.start sink rest).scratch.length = SCRATCH_BYTES :=
    List.length_replicate ..
  refine ⟨.refl rest, rfl, ?_, ?_, Nat.le_refl _⟩
  · rw [hlen]
  · rw [hlen]
    decide

theorem makeRoom_bounds {scratch : List UInt8} {length : Nat} (hlength : length ≤ maxFrameBytes)
    (hleast : SCRATCH_BYTES ≤ scratch.length) (hmost : scratch.length ≤ maxFrameBytes) :
    SCRATCH_BYTES ≤ (makeRoom scratch length).length ∧
      (makeRoom scratch length).length ≤ maxFrameBytes := by
  unfold makeRoom
  split
  · next hsmall =>
    rw [List.length_replicate]
    exact ⟨Nat.le_trans hleast (Nat.le_of_lt hsmall), hlength⟩
  · exact ⟨hleast, hmost⟩

/-- **In step**: whatever is done with a frame, the next header is where its length says. -/
theorem InStep.round {rest : ByteSource} {env : Env} {l l' : Loop} (h : InStep rest l)
    (hround : Round env l l') : InStep rest l' := by
  obtain ⟨hrun, hnext, hdispatch⟩ := hround
  have hgot := nextFrame_obtained hnext
  have hlen : frameLength l.input.bytes = lengthAt rest.bytes (boundary rest.bytes l.rounds) := by
    rw [h.place.bytes, frameLength_drop]
  obtain ⟨hleast, hmost⟩ := makeRoom_bounds hgot.available.inRange.le_max h.least h.most
  refine ⟨?_, ?_, ?_, ?_, ?_⟩
  · have hplace := h.place.trans hgot.consumed
    rw [hlen] at hplace
    exact hplace
  · rw [h.obtained, hgot.frame, h.place.bytes, List.range_succ, List.map_append]
    rfl
  · exact Nat.le_trans hleast (Nat.le_of_eq hgot.scratch.symm)
  · exact Nat.le_trans (Nat.le_of_eq hgot.scratch) hmost
  · have hcost := nextFrame_consumes _ _ _ _ hnext
    have hbefore := h.cost
    dsimp only at hcost hbefore ⊢
    omega

/-- What an iteration takes from the stream. -/
structure Takes (l l' : Loop) : Prop where
  least : l'.input.bytes.length + 14 ≤ l.input.bytes.length
  whole : l.input.bytes.length = l'.input.bytes.length + (16 + frameLength l.input.bytes) ∨
    l.input.fate = .closed ∧ l'.input.bytes = []

theorem Round.takes {env : Env} {l l' : Loop} (hround : Round env l l') : Takes l l' := by
  obtain ⟨hrun, hnext, hdispatch⟩ := hround
  have hgot := nextFrame_obtained hnext
  refine ⟨nextFrame_consumes _ _ _ _ hnext, ?_⟩
  have hbytes := hgot.consumed.bytes
  rcases hgot.available.reserved with hwhole | hclosed
  · have hpayload := hgot.available.payload
    refine .inl ?_
    rw [hbytes, List.length_drop]
    omega
  · by_cases hle : 16 + frameLength l.input.bytes ≤ l.input.bytes.length
    · refine .inl ?_
      rw [hbytes, List.length_drop]
      omega
    · refine .inr ⟨hclosed, ?_⟩
      rw [hbytes]
      exact List.drop_eq_nil_of_le (Nat.le_of_not_le hle)

/-- How the loop can end: asked to, for want of a frame, or at a codec buffer too small for one. -/
theorem Ends.cases {env : Env} {l : Loop} {ended : SessionEnd} (hquiet : Quiet env)
    (h : Ends env l ended) : ended = .stopped ∨
      (∃ e, ended = .reading e ∧ e.isIOException = true ∧ ¬Available l.input) ∨
      ended = .dispatch .bufferOverflow := by
  cases h with
  | stopped hrun => exact .inl rfl
  | @reading e hrun hnext =>
    exact .inr (.inl ⟨e, rfl, raisesIO_nextFrame _ _ _ hnext, nextFrame_unavailable hnext⟩)
  | dispatch hrun hnext hdispatch =>
    rw [(dispatch_error (nextFrame_room hnext) hdispatch).2 hquiet]
    exact .inr (.inr rfl)

/-! ## A session -/

end VideoStream

end PadPlay.Device
