import PadPlay.Protocol
import PadPlay.Device.Protocol

/-!
# The device reads what the host writes

`Protocol.kt` against `crates/protocol`: a header the host encodes is read back field by field
(`parses_readStreamHeader`, `parses_readFrameHeader`), a payload is copied into the buffer it is
read into (`parses_readFully`), and all three readers are stable under truncation.
-/

namespace PadPlay.Device.Protocol

open PadPlay.Lib PadPlay.Device.DataInput
open PadPlay.Protocol (Frame)

/-! ## Stream headers -/

def receivedHeader (h : PadPlay.Protocol.StreamHeader) : StreamHeader where
  width := Int32.ofNat h.width.toNat
  height := Int32.ofNat h.height.toNat
  framerate := Int32.ofNat h.framerate.toNat
  mime := h.codec.mime
  audioCodec := Int32.ofNat h.audioCodec.toU8.toNat
  audioSampleRateHz := Int32.ofNat h.audioSampleRateHz.toNat
  audioChannels := Int32.ofNat h.audioChannels.toNat
  audioPreSkip := Int32.ofNat h.audioPreSkip.toNat

private theorem u16_lt (v : UInt16) : v.toNat < 256 ^ 2 := v.toNat_lt

theorem parses_mimeOf (c : PadPlay.Protocol.Codec) :
    Parses (mimeOf (Int32.ofNat c.toU8.toNat)) [] c.mime := by
  cases c <;> exact .pure _

/-- The encoded stream header, cut where the device reads it. -/
private theorem encode_pieces (h : PadPlay.Protocol.StreamHeader) :
    h.encode = toBE 4 0x4D524C44 ++ ([] ++ (toBE 2 PadPlay.Protocol.VERSION.toNat ++ ([] ++
      (toBE 2 h.width.toNat ++ (toBE 2 h.height.toNat ++ (toBE 2 h.framerate.toNat ++
      ([h.codec.toU8] ++ ([h.audioCodec.toU8] ++ (toBE 2 h.audioSampleRateHz.toNat ++
      ([h.audioChannels] ++ (toBE 2 h.audioPreSkip.toNat ++ (List.replicate 5 0 ++
      ([] ++ ([] ++ [])))))))))))))) := by
  have hmagic : toBE 4 0x4D524C44 = PadPlay.Protocol.MAGIC := by decide
  simp [PadPlay.Protocol.StreamHeader.encode, hmagic]

/-- **The stream header round trip**: what the host encodes the device reads back. -/
theorem parses_readStreamHeader (h : PadPlay.Protocol.StreamHeader) :
    Parses readStreamHeader h.encode (receivedHeader h) := by
  have hshort {v : UInt16} : Parses readUnsignedShort (toBE 2 v.toNat) (Int32.ofNat v.toNat) :=
    parses_readUnsignedShort (u16_lt v)
  have haudio : Int32.ofNat h.audioCodec.toU8.toNat = AUDIO_CODEC_NONE ∨
      Int32.ofNat h.audioCodec.toU8.toNat = AUDIO_CODEC_OPUS := by
    cases h.audioCodec <;> decide
  rw [encode_pieces]
  refine (parses_readInt (by decide)).bind ((parses_require (by decide) _).bind ?_)
  refine hshort.bind ((parses_require (by decide) _).bind ?_)
  refine hshort.bind (hshort.bind (hshort.bind ?_))
  refine (parses_readUnsignedByte _).bind ((parses_readUnsignedByte _).bind ?_)
  refine hshort.bind ((parses_readUnsignedByte _).bind (hshort.bind ?_))
  refine (parses_skipBytes (List.replicate 5 0)).bind ?_
  refine (parses_mimeOf h.codec).bind ((parses_require haudio _).bind ?_)
  exact .pure _

theorem stable_readStreamHeader : Stable readStreamHeader :=
  stable_readInt.bind fun _ => (stable_require _ _).bind fun _ =>
  stable_readUnsignedShort.bind fun _ => (stable_require _ _).bind fun _ =>
  stable_readUnsignedShort.bind fun _ => stable_readUnsignedShort.bind fun _ =>
  stable_readUnsignedShort.bind fun _ => stable_readUnsignedByte.bind fun _ =>
  stable_readUnsignedByte.bind fun _ => stable_readUnsignedShort.bind fun _ =>
  stable_readUnsignedByte.bind fun _ => stable_readUnsignedShort.bind fun _ =>
  (stable_skipBytes 5).bind fun _ =>
  (Stable.ite (.pure _) (.ite (.pure _) (.throw _))).bind fun _ =>
  (stable_require _ _).bind fun _ => .pure _

/-! ## Frame headers -/

def receivedFrameHeader (h : PadPlay.Protocol.FrameHeader) : FrameHeader where
  length := Int32.ofNat h.length.toNat
  ptsNs := Int64.ofNat h.ptsNs.toNat
  keyframe := h.keyframe
  streamType := Int32.ofNat h.streamType.toU8.toNat

def maxFrameBytes : Nat := MAX_FRAME_BYTES.toNatClampNeg

theorem length_in_bounds {n : Nat} (h : n ≤ maxFrameBytes) :
    ¬(Int32.ofNat n < 0 ∨ MAX_FRAME_BYTES < Int32.ofNat n) := by
  have hmax : maxFrameBytes = 8388608 := by decide
  have hint : (Int32.ofNat n).toInt = n := Int32.toInt_ofNat_of_lt (by omega)
  have hzero : (0 : Int32).toInt = 0 := by decide
  have hbound : MAX_FRAME_BYTES.toInt = 8388608 := by decide
  rw [Int32.lt_iff_toInt_lt, Int32.lt_iff_toInt_lt, hint, hzero, hbound]
  omega

theorem receivedFrameHeader_length {f : PadPlay.Protocol.Frame}
    (h : f.payload.length ≤ maxFrameBytes) :
    (receivedFrameHeader f.header).length.toNatClampNeg = f.payload.length := by
  have hmax : maxFrameBytes = 8388608 := by decide
  have hlength : f.header.length.toNat = f.payload.length := by
    simp only [PadPlay.Protocol.Frame.header, UInt32.toNat_ofNat']
    omega
  rw [receivedFrameHeader, hlength, Int32.toNatClampNeg, Int32.toInt_ofNat_of_lt (by omega),
    Int.toNat_natCast]

/-- **The frame header round trip**, for the lengths the device takes. -/
theorem parses_readFrameHeader (h : PadPlay.Protocol.FrameHeader)
    (hlen : h.length.toNat ≤ maxFrameBytes) :
    Parses readFrameHeader h.encode (receivedFrameHeader h) := by
  have hpieces : h.encode = toBE 4 h.length.toNat ++ ([] ++ (toBE 8 h.ptsNs.toNat ++
      ([if h.keyframe then PadPlay.Protocol.FLAG_KEYFRAME else 0] ++ ([h.streamType.toU8] ++
      (List.replicate 2 0 ++ []))))) := by
    simp [PadPlay.Protocol.FrameHeader.encode]
  rw [hpieces]
  refine (parses_readInt h.length.toNat_lt).bind ?_
  refine (parses_require (length_in_bounds hlen) _).bind ?_
  refine (parses_readLong h.ptsNs.toNat_lt).bind ?_
  refine (parses_readUnsignedByte _).bind ((parses_readUnsignedByte _).bind ?_)
  refine (parses_skipBytes (List.replicate 2 0)).bind ?_
  have hflag : (Int32.ofNat (if h.keyframe then PadPlay.Protocol.FLAG_KEYFRAME else 0).toNat &&&
      FLAG_KEYFRAME != 0) = h.keyframe := by
    cases h.keyframe <;> decide
  rw [receivedFrameHeader]
  conv => arg 3; rw [← hflag]
  exact .pure _

theorem stable_readFrameHeader : Stable readFrameHeader :=
  stable_readInt.bind fun _ => (stable_require _ _).bind fun _ =>
  stable_readLong.bind fun _ => stable_readUnsignedByte.bind fun _ =>
  stable_readUnsignedByte.bind fun _ => (stable_skipBytes 2).bind fun _ => .pure _

/-! ## Payloads -/

theorem writeAt_length {buffer chunk : List UInt8} {off : Nat}
    (h : off + chunk.length ≤ buffer.length) :
    (writeAt buffer off chunk).length = buffer.length := by
  simp only [writeAt, List.length_append, List.length_take, List.length_drop]
  omega

theorem writeAt_take {buffer chunk : List UInt8} {off : Nat}
    (h : off + chunk.length ≤ buffer.length) :
    (writeAt buffer off chunk).take (off + chunk.length) = buffer.take off ++ chunk := by
  have hlen : (buffer.take off ++ chunk).length = off + chunk.length := by
    rw [List.length_append, List.length_take, Nat.min_eq_left (by omega)]
  rw [writeAt, ← hlen, List.take_left]

theorem writeAt_drop {buffer chunk : List UInt8} {off n : Nat}
    (h : off + chunk.length ≤ n) (hn : n ≤ buffer.length) :
    (writeAt buffer off chunk).drop n = buffer.drop n := by
  have hlen : (buffer.take off ++ chunk).length = off + chunk.length := by
    rw [List.length_append, List.length_take, Nat.min_eq_left (by omega)]
  rw [writeAt, List.drop_append, List.drop_eq_nil_of_le (by omega), hlen, List.drop_drop,
    List.nil_append, Nat.add_sub_cancel' h]

/-- The loop fills the buffer from `read` on, when there is room and the bytes are there. -/
theorem readFullyFrom_ok {buffer : List UInt8} {length read : Nat} {input : ByteSource}
    (hroom : length ≤ buffer.length) (hread : read ≤ length)
    (hin : length - read ≤ input.bytes.length) :
    ∃ input', readFullyFrom buffer length read input =
        .ok (buffer.take read ++ input.bytes.take (length - read) ++ buffer.drop length, input') ∧
      input.Consumed (length - read) input' := by
  fun_induction readFullyFrom buffer length read input with
  | case1 buffer read input hlt hshort => omega
  | case2 buffer read input hlt _ hanswer =>
    have := (ByteSource.read_eof hanswer).1
    simp only [this, List.length_nil] at hin
    omega
  | case3 buffer read input hlt _ hanswer =>
    have := (ByteSource.read_failed hanswer).1
    simp only [this, List.length_nil] at hin
    omega
  | case4 buffer read input hlt _ chunk rest hanswer ih =>
    obtain ⟨hchunk, hle, -, hrest⟩ := ByteSource.read_data hanswer
    obtain ⟨input', hrun, hcons⟩ := ih (by rw [writeAt_length (by omega)]; exact hroom)
      (by omega) (by rw [hrest.bytes, List.length_drop]; omega)
    refine ⟨input', ?_, ?_⟩
    · rw [hrun, writeAt_take (by omega), writeAt_drop (by omega) hroom, hrest.bytes,
        List.append_assoc (buffer.take read)]
      conv_lhs => arg 1; arg 1; arg 1; arg 2; arg 1; rw [hchunk]
      rw [← List.take_add, Nat.sub_add_eq, Nat.add_sub_cancel' hle]
    · have := hrest.trans hcons
      rwa [Nat.sub_add_eq, Nat.add_sub_cancel' hle] at this
  | case5 buffer read input hge =>
    have : read = length := by omega
    subst this
    exact ⟨input, by simp, by simpa using .refl input⟩

theorem readFullyFrom_short (buffer : List UInt8) {length read : Nat} {input : ByteSource}
    (hin : input.bytes.length < length - read) :
    ∃ e, readFullyFrom buffer length read input = .error e := by
  fun_induction readFullyFrom buffer length read input with
  | case1 => exact ⟨_, rfl⟩
  | case2 => exact ⟨_, rfl⟩
  | case3 => exact ⟨_, rfl⟩
  | case4 buffer read input hlt _ chunk rest hanswer ih =>
    obtain ⟨hchunk, hle, -, hrest⟩ := ByteSource.read_data hanswer
    have hin' : chunk.length ≤ input.bytes.length := by
      rw [hchunk, List.length_take]; exact Nat.min_le_right ..
    exact ih (by rw [hrest.bytes, List.length_drop]; omega)
  | case5 => omega

/-- **The payload round trip**: the bytes land at the front of a buffer that has room for them. -/
theorem parses_readFully {buffer payload : List UInt8} {length : Int32}
    (hlen : length.toNatClampNeg = payload.length) (hroom : payload.length ≤ buffer.length) :
    Parses (readFully buffer length) payload (payload ++ buffer.drop payload.length) := by
  intro s t hs
  have hin : payload.length ≤ s.bytes.length := by simp [hs]
  obtain ⟨s', hrun, hcons⟩ := readFullyFrom_ok hroom (Nat.zero_le _) hin
  refine ⟨s', ?_, by simpa using hcons⟩
  simpa [readFully, StateT.run, hlen, hs] using hrun

theorem stable_readFully {buffer : List UInt8} {length : Int32}
    (hroom : length.toNatClampNeg ≤ buffer.length) : Stable (readFully buffer length) := by
  intro s₁ s₂ b s₁' hpre hclosed h
  by_cases hin : length.toNatClampNeg ≤ s₁.bytes.length
  · have hin₂ := Nat.le_trans hin hpre.length_le
    obtain ⟨r, hr, hk⟩ := readFullyFrom_ok hroom (Nat.zero_le _) hin
    obtain ⟨s₂', hs₂', hk'⟩ := readFullyFrom_ok hroom (Nat.zero_le _) hin₂
    simp only [readFully, StateT.run, hr, Except.ok.injEq, Prod.mk.injEq] at h
    obtain ⟨rfl, rfl⟩ := h
    refine ⟨s₂', ?_, hk'.fate.trans hclosed, .inr ⟨_, hin, hk, hk'⟩⟩
    obtain ⟨t, ht⟩ := hpre
    simp only [readFully, StateT.run, hs₂', ← ht, Nat.sub_zero, List.take_append_of_le_length hin]
  · have hshort : s₁.bytes.length < length.toNatClampNeg - 0 := Nat.lt_of_not_le hin
    obtain ⟨e, he⟩ := readFullyFrom_short buffer hshort
    simp [readFully, StateT.run, he] at h

end PadPlay.Device.Protocol
