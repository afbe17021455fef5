import PadPlay.Device.AudioStream
import PadPlay.Device.Delivery
import PadPlay.Device.Headers
import PadPlay.Device.Playback

/-!
# Two codecs of one wire format

`crates/protocol` and `Protocol.kt` on arbitrary bytes. The two decoders of a header accept the same
bytes and agree on every field, the host's encoders and decoders are inverse to each other, and the
Opus header built on the device carries the fields of the stream header in the other byte order
(`codecs_agree`). What the host's `Sender` writes is another matter: it asks nothing of a payload's
length, so the device takes its headers exactly up to `MAX_FRAME_BYTES` (`perform_taken_iff`).
-/

namespace PadPlay.Device.Protocol

open PadPlay.Lib PadPlay.Device.DataInput
open PadPlay.Transport (SendCall Sender)

/-! ## Numbers in Kotlin's types -/

theorem int32_ofNat_inj {a b : Nat} (ha : a < 2 ^ 32) (hb : b < 2 ^ 32) :
    Int32.ofNat a = Int32.ofNat b ↔ a = b := by
  constructor
  · intro h
    have hbits := congrArg (fun i : Int32 => i.toUInt32.toNat) h
    simp only [Int32.toUInt32_ofNat', UInt32.toNat_ofNat'] at hbits
    omega
  · rintro rfl
    rfl

theorem inRange_ofNat {n : Nat} (hn : n < 2 ^ 32) :
    Plausible (Int32.ofNat n) ↔ n ≤ maxFrameBytes := by
  have hmax : maxFrameBytes = 8388608 := by decide
  constructor
  · intro h
    have hzero : (0 : Int32).toInt = 0 := by decide
    have hbound : MAX_FRAME_BYTES.toInt = 8388608 := by decide
    unfold Plausible at h
    rw [Int32.lt_iff_toInt_lt, Int32.lt_iff_toInt_lt, hzero, hbound, Int32.toInt_ofNat'] at h
    have hsize : Int32.size = 4294967296 := rfl
    rw [hsize, Int.bmod_def] at h
    omega
  · exact length_in_bounds

private theorem byte_keyframe (b : UInt8) :
    (Int32.ofNat b.toNat &&& FLAG_KEYFRAME != 0) = (b &&& PadPlay.Protocol.FLAG_KEYFRAME != 0) := by
  have hall : ∀ n < 256, (Int32.ofNat (UInt8.ofNat n).toNat &&& FLAG_KEYFRAME != 0) =
      (UInt8.ofNat n &&& PadPlay.Protocol.FLAG_KEYFRAME != 0) := by decide +kernel
  have hb := hall b.toNat b.toNat_lt
  rwa [UInt8.ofNat_toNat] at hb

theorem toNat_beAt_two (bs : List UInt8) (off : Nat) :
    (UInt16.ofNat (beAt bs off 2)).toNat = beAt bs off 2 := by
  have hlt := beAt_lt bs off 2
  rw [UInt16.toNat_ofNat']
  exact Nat.mod_eq_of_lt (by omega)

/-! ## Enumerations -/

open PadPlay.Protocol (Codec AudioCodec StreamType)

theorem codec_fromU8 {b : UInt8} {codec : Codec} :
    Codec.fromU8 b = .ok codec ↔ b = codec.toU8 := by
  unfold Codec.fromU8
  split <;> cases codec <;> simp_all [Codec.toU8]

theorem audioCodec_fromU8 {b : UInt8} {codec : AudioCodec} :
    AudioCodec.fromU8 b = .ok codec ↔ b = codec.toU8 := by
  unfold AudioCodec.fromU8
  split <;> cases codec <;> simp_all [AudioCodec.toU8]

theorem streamType_fromU8 {b : UInt8} {streamType : StreamType} :
    StreamType.fromU8 b = .ok streamType ↔ b = streamType.toU8 := by
  unfold StreamType.fromU8
  split <;> cases streamType <;> simp_all [StreamType.toU8]

private theorem except_bind_ok {α β : Type} {m : Except String α} {f : α → Except String β} {b : β}
    (h : m >>= f = .ok b) : ∃ a, m = .ok a ∧ f a = .ok b := by
  cases m with
  | error e => cases h
  | ok a => exact ⟨a, rfl, h⟩

/-! ## Stream headers -/

/-- What `StreamHeader::decode` asks of a buffer, and what it makes of it. -/
structure Decodes (buf : List UInt8) (h : PadPlay.Protocol.StreamHeader) : Prop where
  magic : buf.take 4 = PadPlay.Protocol.MAGIC
  version : UInt16.ofNat (beAt buf 4 2) = PadPlay.Protocol.VERSION
  width : h.width = UInt16.ofNat (beAt buf 6 2)
  height : h.height = UInt16.ofNat (beAt buf 8 2)
  framerate : h.framerate = UInt16.ofNat (beAt buf 10 2)
  codec : buf.getD 12 0 = h.codec.toU8
  audioCodec : buf.getD 13 0 = h.audioCodec.toU8
  audioSampleRateHz : h.audioSampleRateHz = UInt16.ofNat (beAt buf 14 2)
  audioChannels : h.audioChannels = buf.getD 16 0
  audioPreSkip : h.audioPreSkip = UInt16.ofNat (beAt buf 17 2)

theorem decode_iff {buf : List UInt8} {h : PadPlay.Protocol.StreamHeader} :
    PadPlay.Protocol.StreamHeader.decode buf = .ok h ↔
      PadPlay.Protocol.STREAM_HEADER_LEN ≤ buf.length ∧ Decodes buf h := by
  unfold PadPlay.Protocol.StreamHeader.decode
  constructor
  · intro hdecode
    split at hdecode
    · cases hdecode
    · next hlen =>
      split at hdecode
      · cases hdecode
      · next hmagic =>
        simp only at hdecode
        split at hdecode
        · cases hdecode
        · next hversion =>
          obtain ⟨codec, hcodec, hdecode⟩ := except_bind_ok hdecode
          obtain ⟨audioCodec, haudio, hdecode⟩ := except_bind_ok hdecode
          cases hdecode
          exact ⟨Nat.le_of_not_lt hlen, Decidable.not_not.1 hmagic, Decidable.not_not.1 hversion,
            rfl, rfl, rfl, codec_fromU8.1 hcodec, audioCodec_fromU8.1 haudio, rfl, rfl, rfl⟩
  · rintro ⟨hlen, hd⟩
    rw [if_neg (Nat.not_lt.2 hlen), if_neg (fun hno => hno hd.magic)]
    simp only
    rw [if_neg (fun hno => hno hd.version), codec_fromU8.2 hd.codec,
      audioCodec_fromU8.2 hd.audioCodec, ← hd.width, ← hd.height, ← hd.framerate,
      ← hd.audioSampleRateHz, ← hd.audioChannels, ← hd.audioPreSkip]
    rfl

/-! ### The device's view -/

private theorem magic_iff {buf : List UInt8} (hlen : 4 ≤ buf.length) :
    Int32.ofNat (beAt buf 0 4) = MAGIC ↔ buf.take 4 = PadPlay.Protocol.MAGIC := by
  have hmagic : MAGIC = Int32.ofNat 0x4D524C44 := rfl
  have hlist : toBE 4 0x4D524C44 = PadPlay.Protocol.MAGIC := by decide
  have hback : toBE 4 (beAt buf 0 4) = buf.take 4 := by
    rw [toBE_beAt (by omega), List.drop_zero]
  rw [hmagic, int32_ofNat_inj (beAt_lt buf 0 4) (by decide)]
  constructor
  · intro h
    rw [← hback, h, hlist]
  · intro h
    rw [beAt, List.drop_zero, h]
    decide

private theorem version_iff (buf : List UInt8) :
    Int32.ofNat (beAt buf 4 2) = VERSION ↔
      UInt16.ofNat (beAt buf 4 2) = PadPlay.Protocol.VERSION := by
  have hversion : VERSION = Int32.ofNat 2 := rfl
  have hlt := beAt_lt buf 4 2
  rw [hversion, int32_ofNat_inj (Nat.lt_trans hlt (by decide)) (by decide), ← UInt16.toNat_inj,
    toNat_beAt_two]
  rfl

private theorem byte_iff (buf : List UInt8) (off : Nat) (b : UInt8) :
    Int32.ofNat (beAt buf off 1) = Int32.ofNat b.toNat ↔ buf.getD off 0 = b := by
  have hlt (b : UInt8) : b.toNat < 2 ^ 32 := Nat.lt_trans b.toNat_lt (by decide)
  rw [beAt_one, int32_ofNat_inj (hlt _) (hlt _), UInt8.toNat_inj]

/-- **Acceptance**: the device asks the same of a header as the host. -/
theorem supported_iff {buf : List UInt8} (hlen : PadPlay.Protocol.STREAM_HEADER_LEN ≤ buf.length) :
    Supported buf ↔ ∃ h, Decodes buf h := by
  have hfour : 4 ≤ buf.length := Nat.le_trans (by decide) hlen
  constructor
  · intro h
    have hcodec : ∃ codec : Codec, buf.getD 12 0 = codec.toU8 := by
      rcases h.codec with hzero | hone
      · exact ⟨.h264, (byte_iff buf 12 0).1 hzero⟩
      · exact ⟨.h265, (byte_iff buf 12 1).1 hone⟩
    have haudio : ∃ codec : AudioCodec, buf.getD 13 0 = codec.toU8 := by
      rcases h.audioCodec with hzero | hone
      · exact ⟨.none, (byte_iff buf 13 0).1 hzero⟩
      · exact ⟨.opus, (byte_iff buf 13 1).1 hone⟩
    obtain ⟨codec, hcodec⟩ := hcodec
    obtain ⟨audioCodec, haudio⟩ := haudio
    exact ⟨⟨_, _, _, codec, audioCodec, _, _, _⟩, (magic_iff hfour).1 h.magic,
      (version_iff buf).1 h.version, rfl, rfl, rfl, hcodec, haudio, rfl, rfl, rfl⟩
  · rintro ⟨h, hd⟩
    refine ⟨(magic_iff hfour).2 hd.magic, (version_iff buf).2 hd.version, ?_, ?_⟩
    · cases hc : h.codec with
      | h264 => exact .inl ((byte_iff buf 12 0).2 (by rw [hd.codec, hc]; rfl))
      | h265 => exact .inr ((byte_iff buf 12 1).2 (by rw [hd.codec, hc]; rfl))
    · cases hc : h.audioCodec with
      | none => exact .inl ((byte_iff buf 13 0).2 (by rw [hd.audioCodec, hc]; rfl))
      | opus => exact .inr ((byte_iff buf 13 1).2 (by rw [hd.audioCodec, hc]; rfl))

/-- **Every field** is the same on both sides. -/
theorem Decodes.streamHeaderOf {buf : List UInt8} {h : PadPlay.Protocol.StreamHeader}
    (hd : Decodes buf h) : streamHeaderOf buf = receivedHeader h := by
  have hmime : (if Int32.ofNat (beAt buf 12 1) = 0 then "video/avc" else "video/hevc") =
      h.codec.mime := by
    rw [beAt_one, hd.codec]
    cases h.codec <;> rfl
  rw [Protocol.streamHeaderOf, receivedHeader, hmime, hd.width, hd.height, hd.framerate,
    hd.audioSampleRateHz, hd.audioChannels, hd.audioPreSkip, ← hd.audioCodec, beAt_one buf 13,
    beAt_one buf 16]
  simp only [toNat_beAt_two]

/-- The bytes of a header that are read are written again; the reserved ones are zeroed. -/
theorem Decodes.encode {buf : List UInt8} {h : PadPlay.Protocol.StreamHeader}
    (hlen : PadPlay.Protocol.STREAM_HEADER_LEN ≤ buf.length) (hd : Decodes buf h) :
    h.encode = buf.take 19 ++ List.replicate 5 0 := by
  have h24 : 24 ≤ buf.length := hlen
  have hbyte (off : Nat) (hoff : off + 1 ≤ buf.length) :
      (buf.drop off).take 1 = [buf.getD off 0] := by
    rw [← toBE_beAt hoff, beAt_one]
    simp [toBE]
  have hshort (off : Nat) (hoff : off + 2 ≤ buf.length) :
      toBE 2 (UInt16.ofNat (beAt buf off 2)).toNat = (buf.drop off).take 2 := by
    rw [toNat_beAt_two, toBE_beAt hoff]
  have hcut (off n : Nat) : buf.take (off + n) = buf.take off ++ (buf.drop off).take n :=
    List.take_add
  have hpieces : buf.take 19 = buf.take 4 ++ (buf.drop 4).take 2 ++ (buf.drop 6).take 2 ++
      (buf.drop 8).take 2 ++ (buf.drop 10).take 2 ++ (buf.drop 12).take 1 ++
      (buf.drop 13).take 1 ++ (buf.drop 14).take 2 ++ (buf.drop 16).take 1 ++
      (buf.drop 17).take 2 := by
    rw [← hcut 4, ← hcut 6, ← hcut 8, ← hcut 10, ← hcut 12, ← hcut 13, ← hcut 14, ← hcut 16,
      ← hcut 17]
  rw [hpieces, hbyte 12 (by omega), hbyte 13 (by omega), hbyte 16 (by omega),
    ← hshort 4 (by omega), ← hshort 6 (by omega), ← hshort 8 (by omega), ← hshort 10 (by omega),
    ← hshort 14 (by omega), ← hshort 17 (by omega), hd.magic, hd.version, hd.codec, hd.audioCodec,
    ← hd.width, ← hd.height, ← hd.framerate, ← hd.audioSampleRateHz, ← hd.audioChannels,
    ← hd.audioPreSkip]
  simp [PadPlay.Protocol.StreamHeader.encode]

theorem decode_encode (h : PadPlay.Protocol.StreamHeader) :
    PadPlay.Protocol.StreamHeader.decode h.encode = .ok h := by
  have hshort (v : UInt16) : UInt16.ofNat (ofBE (toBE 2 v.toNat)) = v := by
    rw [ofBE_toBE_of_lt v.toNat_lt, UInt16.ofNat_toNat]
  exact decode_iff.2 ⟨h.encode_length.ge, rfl, rfl, (hshort h.width).symm, (hshort h.height).symm,
    (hshort h.framerate).symm, rfl, rfl, (hshort h.audioSampleRateHz).symm, rfl,
    (hshort h.audioPreSkip).symm⟩

/-! ## Frame headers -/

theorem frame_decode_encode (h : PadPlay.Protocol.FrameHeader) :
    PadPlay.Protocol.FrameHeader.decode h.encode = .ok h := by
  have hlength : UInt32.ofNat (ofBE (toBE 4 h.length.toNat)) = h.length := by
    rw [ofBE_toBE_of_lt h.length.toNat_lt, UInt32.ofNat_toNat]
  have hpts : UInt64.ofNat (ofBE (toBE 8 h.ptsNs.toNat)) = h.ptsNs := by
    rw [ofBE_toBE_of_lt h.ptsNs.toNat_lt, UInt64.ofNat_toNat]
  have hflag : ((if h.keyframe then PadPlay.Protocol.FLAG_KEYFRAME else 0) &&&
      PadPlay.Protocol.FLAG_KEYFRAME != 0) = h.keyframe := by
    cases h.keyframe <;> decide
  unfold PadPlay.Protocol.FrameHeader.decode
  rw [if_neg (by simp)]
  have hlength' : beAt h.encode 0 4 = ofBE (toBE 4 h.length.toNat) := rfl
  have hpts' : beAt h.encode 4 8 = ofBE (toBE 8 h.ptsNs.toNat) := rfl
  have hflag' : h.encode.getD 12 0 = if h.keyframe then PadPlay.Protocol.FLAG_KEYFRAME else 0 := rfl
  have htype' : h.encode.getD 13 0 = h.streamType.toU8 := rfl
  rw [hlength', hpts', hflag', htype', hlength, hpts, hflag, streamType_fromU8.2 rfl]
  rfl

/-- **Frame headers agree**: a length the device takes and a stream type the host knows. -/
theorem frame_decode_agrees {buf : List UInt8} (cuts : Nat → Nat) (fate : Fate)
    (hlen : PadPlay.Protocol.FRAME_HEADER_LEN ≤ buf.length) (hmax : beAt buf 0 4 ≤ maxFrameBytes)
    (htype : buf.getD 13 0 = 0 ∨ buf.getD 13 0 = 1) :
    ∃ h rest, PadPlay.Protocol.FrameHeader.decode buf = .ok h ∧
      readFrameHeader.run ⟨buf, cuts, fate⟩ = .ok (receivedFrameHeader h, rest) ∧
      rest.bytes = buf.drop 16 ∧ h.length.toNat = beAt buf 0 4 ∧ h.ptsNs.toNat = beAt buf 4 8 := by
  have h16 : 16 ≤ buf.length := hlen
  obtain ⟨streamType, htype⟩ : ∃ t : StreamType, buf.getD 13 0 = t.toU8 := by
    rcases htype with hzero | hone
    · exact ⟨.video, hzero⟩
    · exact ⟨.audio, hone⟩
  have hlength : (UInt32.ofNat (beAt buf 0 4)).toNat = beAt buf 0 4 := by
    rw [UInt32.toNat_ofNat']
    exact Nat.mod_eq_of_lt (beAt_lt buf 0 4)
  have hpts : (UInt64.ofNat (beAt buf 4 8)).toNat = beAt buf 4 8 := by
    rw [UInt64.toNat_ofNat']
    exact Nat.mod_eq_of_lt (beAt_lt buf 4 8)
  let s : ByteSource := ⟨buf, cuts, fate⟩
  obtain ⟨rest, hrun, hrest⟩ := (reads_readFrameHeader s).ok
    ⟨Nat.le_trans (by decide) h16, length_in_bounds hmax, .inl h16⟩ s (.refl s)
  refine ⟨⟨UInt32.ofNat (beAt buf 0 4), UInt64.ofNat (beAt buf 4 8),
    buf.getD 12 0 &&& PadPlay.Protocol.FLAG_KEYFRAME != 0, streamType⟩, rest, ?_, ?_, hrest.bytes,
    hlength, hpts⟩
  · unfold PadPlay.Protocol.FrameHeader.decode
    rw [if_neg (Nat.not_lt.2 hlen), streamType_fromU8.2 htype]
    rfl
  · rw [hrun, receivedFrameHeader, hlength, hpts, ← byte_keyframe, ← htype, ← beAt_one, ← beAt_one]
    rfl

/-! ## Acknowledgements -/

theorem encodeAck_eq (ptsNs : Int64) :
    VideoStream.encodeAck ptsNs = toBE 8 ptsNs.toUInt64.toNat := by
  have hbyte (u shift : UInt64) (h : shift < 64) :
      (u >>> shift).toUInt8 = UInt8.ofNat (u.toNat / 2 ^ shift.toNat) := by
    have hmod : shift.toNat % 64 = shift.toNat := Nat.mod_eq_of_lt (UInt64.lt_iff_toNat_lt.1 h)
    apply UInt8.toNat_inj.1
    rw [UInt64.toNat_toUInt8, UInt64.toNat_shiftRight, hmod, Nat.shiftRight_eq_div_pow,
      UInt8.toNat_ofNat']
  simp only [VideoStream.encodeAck, List.map_cons, List.map_nil, toBE,
    hbyte _ 56 (by decide), hbyte _ 48 (by decide), hbyte _ 40 (by decide), hbyte _ 32 (by decide),
    hbyte _ 24 (by decide), hbyte _ 16 (by decide), hbyte _ 8 (by decide), hbyte _ 0 (by decide)]
  rfl

theorem decodeAck_encodeAck (ptsNs : Int64) :
    PadPlay.Protocol.decodeAck (VideoStream.encodeAck ptsNs) = .ok ptsNs.toUInt64 := by
  have hlen : (toBE 8 ptsNs.toUInt64.toNat).length = PadPlay.Protocol.ACK_LEN := toBE_length ..
  rw [encodeAck_eq, PadPlay.Protocol.decodeAck, if_neg (by rw [hlen]; exact Nat.lt_irrefl _), beAt,
    List.drop_zero, ← hlen, List.take_length, ofBE_toBE_of_lt ptsNs.toUInt64.toNat_lt,
    UInt64.ofNat_toNat]

/-! ## The Opus header -/

theorem toNat_int32 {n : Nat} (h : n < 2 ^ 32) : (Int32.ofNat n).toUInt32.toNat = n := by
  rw [Int32.toUInt32_ofNat', UInt32.toNat_ofNat']
  exact Nat.mod_eq_of_lt h

theorem csd0_fields (h : PadPlay.Protocol.StreamHeader) :
    let head := AudioStream.csd0 (receivedHeader h)
    head.length = AudioStream.OPUS_HEAD_LEN ∧ leAt head 9 1 = h.audioChannels.toNat ∧
      leAt head 10 2 = h.audioPreSkip.toNat ∧ leAt head 12 4 = h.audioSampleRateHz.toNat := by
  intro head
  have hwide (v : UInt16) : v.toNat < 2 ^ 32 := Nat.lt_trans v.toNat_lt (by decide)
  have hchannels : (Int32.ofNat h.audioChannels.toNat).toUInt32.toUInt8 = h.audioChannels := by
    apply UInt8.toNat_inj.1
    rw [UInt32.toNat_toUInt8, toNat_int32 (Nat.lt_trans h.audioChannels.toNat_lt (by decide))]
    exact Nat.mod_eq_of_lt h.audioChannels.toNat_lt
  have hpreSkip : leAt head 10 2 =
      ofLE (toLE 2 (Int32.ofNat h.audioPreSkip.toNat).toUInt32.toNat) := rfl
  have hrate : leAt head 12 4 =
      ofLE (toLE 4 (Int32.ofNat h.audioSampleRateHz.toNat).toUInt32.toNat) := rfl
  have hcount : leAt head 9 1 =
      ofLE [(Int32.ofNat h.audioChannels.toNat).toUInt32.toUInt8] := rfl
  refine ⟨rfl, ?_, ?_, ?_⟩
  · rw [hcount, hchannels]
    simp [ofLE, ofBE]
  · rw [hpreSkip, toNat_int32 (hwide _), ofLE_toLE_of_lt h.audioPreSkip.toNat_lt]
  · rw [hrate, toNat_int32 (hwide _), ofLE_toLE_of_lt (hwide _)]

/-! ## The two codecs -/

/-- **Both codecs agree**: on every buffer that could be a stream header, on every frame header the
device takes, and on every acknowledgement. -/
theorem codecs_agree :
    (∀ (buf : List UInt8) (cuts : Nat → Nat) (fate : Fate),
      PadPlay.Protocol.STREAM_HEADER_LEN ≤ buf.length →
      ((∃ h, PadPlay.Protocol.StreamHeader.decode buf = .ok h) ↔
        ∃ k rest, readStreamHeader.run ⟨buf, cuts, fate⟩ = .ok (k, rest)) ∧
      ∀ h, PadPlay.Protocol.StreamHeader.decode buf = .ok h →
        (∃ rest, readStreamHeader.run ⟨buf, cuts, fate⟩ = .ok (receivedHeader h, rest)) ∧
        h.encode = buf.take 19 ++ List.replicate 5 0 ∧
        let head := AudioStream.csd0 (receivedHeader h)
        leAt head 9 1 = h.audioChannels.toNat ∧ leAt head 10 2 = h.audioPreSkip.toNat ∧
          leAt head 12 4 = h.audioSampleRateHz.toNat) ∧
    (∀ h : PadPlay.Protocol.StreamHeader,
      PadPlay.Protocol.StreamHeader.decode h.encode = .ok h) ∧
    (∀ (buf : List UInt8) (cuts : Nat → Nat) (fate : Fate),
      buf.length = PadPlay.Protocol.FRAME_HEADER_LEN → beAt buf 0 4 ≤ maxFrameBytes →
      (buf.getD 13 0 = 0 ∨ buf.getD 13 0 = 1) →
      ∃ h rest, PadPlay.Protocol.FrameHeader.decode buf = .ok h ∧
        readFrameHeader.run ⟨buf, cuts, fate⟩ = .ok (receivedFrameHeader h, rest) ∧
        rest.bytes = buf.drop 16 ∧ h.length.toNat = beAt buf 0 4 ∧
        h.ptsNs.toNat = beAt buf 4 8) ∧
    (∀ h : PadPlay.Protocol.FrameHeader, PadPlay.Protocol.FrameHeader.decode h.encode = .ok h) ∧
    ∀ ptsNs : Int64,
      PadPlay.Protocol.decodeAck (VideoStream.encodeAck ptsNs) = .ok ptsNs.toUInt64 := by
  refine ⟨?_, decode_encode, ?_, frame_decode_encode, decodeAck_encodeAck⟩
  · intro buf cuts fate hlen
    have h24 : 24 ≤ buf.length := hlen
    let s : ByteSource := ⟨buf, cuts, fate⟩
    have hreads := reads_readStreamHeader s
    have haccepts : Supported buf →
        ∃ rest, readStreamHeader.run s = .ok (streamHeaderOf buf, rest) := by
      intro hsupported
      obtain ⟨rest, hrun, -⟩ := hreads.ok
        ⟨Nat.le_trans (by decide) h24, hsupported, .inl h24⟩ s (.refl s)
      exact ⟨rest, hrun⟩
    refine ⟨?_, ?_⟩
    · constructor
      · rintro ⟨h, hdecode⟩
        have hd := (decode_iff.1 hdecode).2
        exact ⟨_, haccepts ((supported_iff hlen).2 ⟨h, hd⟩)⟩
      · rintro ⟨k, rest, hrun⟩
        obtain ⟨h, hd⟩ := (supported_iff hlen).1 (hreads.inv s (.refl s) _ _ hrun).1.2.1
        exact ⟨h, decode_iff.2 ⟨hlen, hd⟩⟩
    · intro h hdecode
      have hd := (decode_iff.1 hdecode).2
      refine ⟨?_, hd.encode hlen, (csd0_fields h).2⟩
      rw [← hd.streamHeaderOf]
      exact haccepts ((supported_iff hlen).2 ⟨h, hd⟩)
  · intro buf cuts fate hlen hmax htype
    exact frame_decode_agrees cuts fate hlen.ge hmax htype

/-! ## What the sender writes -/

open PadPlay.Protocol (Frame)

/-- The device takes the header at the front of what a send wrote, and reads the payload's length
in it. -/
def Taken (f : Frame) (written : List UInt8) : Prop :=
  beAt written 0 4 = f.payload.length ∧
    ∀ cuts fate, ∃ frame rest, readFrameHeader.run ⟨written, cuts, fate⟩ = .ok (frame, rest)

/-- **A frame is taken** exactly up to the device's limit, which the host does not know. -/
theorem taken_encode_iff (f : Frame) : Taken f f.encode ↔ f.payload.length ≤ maxFrameBytes := by
  have hmax : maxFrameBytes = 8388608 := by decide
  have hfield : beAt f.encode 0 4 = f.payload.length % 2 ^ 32 := by
    have hcut : beAt f.encode 0 4 = ofBE (toBE 4 f.header.length.toNat) := rfl
    rw [hcut, ofBE_toBE_of_lt f.header.length.toNat_lt, Frame.header, UInt32.toNat_ofNat']
  have hlen : 16 ≤ f.encode.length := by
    rw [Frame.encode_length]
    exact Nat.le_add_right _ _
  constructor
  · rintro ⟨hlength, haccepts⟩
    obtain ⟨frame, rest, hrun⟩ := haccepts (fun _ => 0) .closed
    obtain ⟨⟨-, hplausible, -⟩, -, -⟩ := (reads_readFrameHeader _).inv _ (.refl _) _ _ hrun
    have hn := (inRange_ofNat (beAt_lt f.encode 0 4)).1 hplausible
    rwa [hlength] at hn
  · intro hle
    have hsame : beAt f.encode 0 4 = f.payload.length := by
      rw [hfield]
      exact Nat.mod_eq_of_lt (by omega)
    refine ⟨hsame, ?_⟩
    intro cuts fate
    have hplausible : Plausible (Int32.ofNat (beAt f.encode 0 4)) := by
      rw [hsame]
      exact length_in_bounds hle
    obtain ⟨rest, hrun, -⟩ := (reads_readFrameHeader ⟨f.encode, cuts, fate⟩).ok
      ⟨Nat.le_trans (by decide) hlen, hplausible, .inl hlen⟩ _ (.refl _)
    exact ⟨_, rest, hrun⟩

theorem perform_written {self : Sender} {call : SendCall} (hok : (call.perform self).1 = .ok ()) :
    (call.perform self).2.stream.wire.drop self.stream.wire.length = call.frame.encode := by
  obtain ⟨k, hwrote⟩ := call.perform_spec self
  rw [hwrote.wire, (hwrote.ok hok).1, List.take_length, List.drop_left]

/-- **A send that succeeds** wrote a header the device takes exactly when the payload is within the
device's limit. -/
theorem perform_taken_iff (self : Sender) (call : SendCall)
    (hok : (call.perform self).1 = .ok ()) :
    Taken call.frame ((call.perform self).2.stream.wire.drop self.stream.wire.length) ↔
      call.frame.payload.length ≤ maxFrameBytes := by
  rw [perform_written hok]
  exact taken_encode_iff call.frame

/-- A socket that takes everything it is offered. -/
def roomy : Sender := ⟨⟨[], fun _ => ⟨0, .accepted (2 ^ 24)⟩⟩, 0, 0⟩

theorem perform_roomy {call : SendCall} (h : call.frame.encode.length ≤ 2 ^ 24) :
    (call.perform roomy).1 = .ok () := by
  have hwrites {f : Frame} (h : f.encode.length ≤ 2 ^ 24) :
      (Transport.writeAllVectored roomy.stream [f.header.encode, f.payload]).1 = .ok () := by
    have hflat : [f.header.encode, f.payload].flatten = f.encode := by simp [Frame.encode]
    have hwhole : f.encode.take (2 ^ 24 + 1) = f.encode := List.take_of_length_le (by omega)
    have hlen : f.encode.length = f.header.encode.length + f.payload.length :=
      List.length_append ..
    have hwrite : roomy.stream.writeVectored [f.header.encode, f.payload] =
        (.ok f.encode.length, roomy.stream.next f.encode) := by
      simp only [ByteSink.writeVectored, roomy, hflat, hwhole]
      rfl
    have hrest : advanceSlices [f.header.encode, f.payload] f.encode.length = [] := by
      rw [advanceSlices, if_pos (by omega), advanceSlices, if_pos (by omega), advanceSlices]
    rw [PadPlay.Transport.writeAllVectored, if_neg (by simp)]
    split
    · next hwrite' => rw [hwrite] at hwrite'; cases hwrite'
    · next written writer hwrite' =>
      rw [hwrite] at hwrite'
      cases hwrite'
      have hne : f.encode.length ≠ 0 := mt List.length_eq_zero_iff.1 f.encode_ne_nil
      rw [dif_neg hne, hrest, PadPlay.Transport.writeAllVectored, if_pos rfl]
  have hsend (f : Frame) (h : f.encode.length ≤ 2 ^ 24) :
      (roomy.send f.streamType f.payload f.ptsNs f.keyframe).1 = .ok () := by
    rw [Sender.send_frame]
    have hok := hwrites h
    split
    · next hwrite => rw [hwrite] at hok; cases hok
    · rfl
  cases call with
  | video payload ptsNs keyframe => exact hsend ⟨.video, payload, ptsNs, keyframe⟩ h
  | audio payload ptsNs => exact hsend ⟨.audio, payload, ptsNs, false⟩ h

/-- A keyframe one byte over the limit is sent, and not taken. -/
theorem large_keyframe_not_taken :
    let call : SendCall := .video (List.replicate 8388609 0) 0 true
    (call.perform roomy).1 = .ok () ∧
      ¬Taken call.frame ((call.perform roomy).2.stream.wire.drop roomy.stream.wire.length) := by
  intro call
  have hpayload : call.frame.payload.length = 8388609 := List.length_replicate ..
  have hok : (call.perform roomy).1 = .ok () := by
    apply perform_roomy
    rw [Frame.encode_length, hpayload]
    decide
  refine ⟨hok, ?_⟩
  rw [perform_written hok, taken_encode_iff, hpayload]
  decide

theorem small_frame_taken :
    let call : SendCall := .video [0, 0, 0, 1] 16666667 true
    Taken call.frame ((call.perform roomy).2.stream.wire.drop roomy.stream.wire.length) :=
  (perform_taken_iff roomy (.video [0, 0, 0, 1] 16666667 true) (perform_roomy (by decide))).2
    (by decide)

end PadPlay.Device.Protocol
