import PadPlay.Lib.BigEndian

/-!
# The wire format (`crates/protocol`)

One `StreamHeader` at connect, then a `FrameHeader` and a payload per access unit, on one socket
that carries both video and audio. Every multi-byte field is big-endian.
-/

namespace PadPlay.Protocol

open PadPlay.Lib

/-- `b"MRLD"`. -/
def MAGIC : List UInt8 := [0x4D, 0x52, 0x4C, 0x44]
def VERSION : UInt16 := 2
def STREAM_HEADER_LEN : Nat := 24
def FRAME_HEADER_LEN : Nat := 16

inductive Codec where
  | h264
  | h265
  deriving DecidableEq, Repr

namespace Codec

/-- The `repr(u8)` discriminant. -/
def toU8 : Codec → UInt8
  | h264 => 0
  | h265 => 1

def fromU8 (value : UInt8) : Except String Codec :=
  match value with
  | 0 => .ok h264
  | 1 => .ok h265
  | other => .error s!"unknown codec id {other}"

/-- MIME type MediaCodec expects. -/
def mime : Codec → String
  | h264 => "video/avc"
  | h265 => "video/hevc"

end Codec

inductive AudioCodec where
  | none
  | opus
  deriving DecidableEq, Repr

namespace AudioCodec

def toU8 : AudioCodec → UInt8
  | none => 0
  | opus => 1

def fromU8 (value : UInt8) : Except String AudioCodec :=
  match value with
  | 0 => .ok none
  | 1 => .ok opus
  | other => .error s!"unknown audio codec id {other}"

end AudioCodec

inductive StreamType where
  | video
  | audio
  deriving DecidableEq, Repr

namespace StreamType

def toU8 : StreamType → UInt8
  | video => 0
  | audio => 1

def fromU8 (value : UInt8) : Except String StreamType :=
  match value with
  | 0 => .ok video
  | 1 => .ok audio
  | other => .error s!"unknown stream type id {other}"

end StreamType

structure StreamHeader where
  width : UInt16
  height : UInt16
  framerate : UInt16
  codec : Codec
  audioCodec : AudioCodec
  audioSampleRateHz : UInt16
  audioChannels : UInt8
  audioPreSkip : UInt16
  deriving DecidableEq, Repr

/-- The 19 meaningful bytes, then the 5 reserved ones the zeroed buffer leaves. -/
def StreamHeader.encode (h : StreamHeader) : List UInt8 :=
  MAGIC ++ toBE 2 VERSION.toNat ++ toBE 2 h.width.toNat ++ toBE 2 h.height.toNat ++
    toBE 2 h.framerate.toNat ++ [h.codec.toU8, h.audioCodec.toU8] ++
    toBE 2 h.audioSampleRateHz.toNat ++ [h.audioChannels] ++ toBE 2 h.audioPreSkip.toNat ++
    List.replicate 5 0

@[simp] theorem StreamHeader.encode_length (h : StreamHeader) :
    h.encode.length = STREAM_HEADER_LEN := by
  simp [encode, MAGIC, STREAM_HEADER_LEN]

/-- `{:02x?}` of a byte slice. -/
def debugHex (bs : List UInt8) : String :=
  let digits (b : UInt8) :=
    String.ofList [Nat.digitChar (b.toNat / 16), Nat.digitChar (b.toNat % 16)]
  "[" ++ ", ".intercalate (bs.map digits) ++ "]"

def StreamHeader.decode (buf : List UInt8) : Except String StreamHeader :=
  if buf.length < STREAM_HEADER_LEN then .error s!"stream header too short: {buf.length} bytes"
  else if buf.take 4 ≠ MAGIC then .error s!"bad magic: {debugHex (buf.take 4)}"
  else
    let version := UInt16.ofNat (beAt buf 4 2)
    if version ≠ VERSION then
      .error s!"unsupported protocol version {version} (expected {VERSION})"
    else do
      let width := UInt16.ofNat (beAt buf 6 2)
      let height := UInt16.ofNat (beAt buf 8 2)
      let framerate := UInt16.ofNat (beAt buf 10 2)
      let codec ← Codec.fromU8 (buf.getD 12 0)
      let audioCodec ← AudioCodec.fromU8 (buf.getD 13 0)
      let audioSampleRateHz := UInt16.ofNat (beAt buf 14 2)
      let audioChannels := buf.getD 16 0
      let audioPreSkip := UInt16.ofNat (beAt buf 17 2)
      return { width, height, framerate, codec, audioCodec, audioSampleRateHz, audioChannels,
               audioPreSkip }

def FLAG_KEYFRAME : UInt8 := 1

structure FrameHeader where
  length : UInt32
  ptsNs : UInt64
  keyframe : Bool
  streamType : StreamType
  deriving DecidableEq, Repr

def FrameHeader.encode (h : FrameHeader) : List UInt8 :=
  toBE 4 h.length.toNat ++ toBE 8 h.ptsNs.toNat ++
    [if h.keyframe then FLAG_KEYFRAME else 0, h.streamType.toU8] ++ List.replicate 2 0

@[simp] theorem FrameHeader.encode_length (h : FrameHeader) :
    h.encode.length = FRAME_HEADER_LEN := by
  simp [encode, FRAME_HEADER_LEN]

def FrameHeader.decode (buf : List UInt8) : Except String FrameHeader :=
  if buf.length < FRAME_HEADER_LEN then .error s!"frame header too short: {buf.length} bytes"
  else do
    let length := UInt32.ofNat (beAt buf 0 4)
    let ptsNs := UInt64.ofNat (beAt buf 4 8)
    let keyframe := buf.getD 12 0 &&& FLAG_KEYFRAME != 0
    let streamType ← StreamType.fromU8 (buf.getD 13 0)
    return { length, ptsNs, keyframe, streamType }

/-- A frame: the access unit or packet, and what its header says about it. -/
structure Frame where
  streamType : StreamType
  payload : List UInt8
  ptsNs : UInt64
  keyframe : Bool
  deriving DecidableEq, Repr

namespace Frame

def header (f : Frame) : FrameHeader where
  length := UInt32.ofNat f.payload.length
  ptsNs := f.ptsNs
  keyframe := f.keyframe
  streamType := f.streamType

def encode (f : Frame) : List UInt8 := f.header.encode ++ f.payload

@[simp] theorem encode_length (f : Frame) :
    f.encode.length = FRAME_HEADER_LEN + f.payload.length := by
  simp [encode]

theorem encode_ne_nil (f : Frame) : f.encode ≠ [] := by
  intro h
  have := congrArg List.length h
  simp [FRAME_HEADER_LEN] at this

end Frame

/-- Device to host acknowledgements are this long. -/
def ACK_LEN : Nat := 8

def decodeAck (buf : List UInt8) : Except String UInt64 :=
  if buf.length < ACK_LEN then .error s!"ack too short: {buf.length} bytes"
  else .ok (UInt64.ofNat (beAt buf 0 ACK_LEN))

end PadPlay.Protocol
