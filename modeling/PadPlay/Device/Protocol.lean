import PadPlay.Device.Platform

/-!
# The device's reading of the wire format (`Protocol.kt`)
-/

namespace PadPlay.Device.Protocol

open PadPlay.Lib PadPlay.Device.DataInput

/-- `"MRLD"`. -/
def MAGIC : Int32 := 0x4D524C44
def VERSION : Int32 := 2
def FLAG_KEYFRAME : Int32 := 0x01
def STREAM_TYPE_VIDEO : Int32 := 0
def STREAM_TYPE_AUDIO : Int32 := 1
def AUDIO_CODEC_NONE : Int32 := 0
def AUDIO_CODEC_OPUS : Int32 := 1

/-- Refuse absurd frame lengths rather than attempting the allocation. -/
def MAX_FRAME_BYTES : Int32 := 8 * 1024 * 1024

structure StreamHeader where
  width : Int32
  height : Int32
  framerate : Int32
  mime : String
  audioCodec : Int32
  audioSampleRateHz : Int32
  audioChannels : Int32
  audioPreSkip : Int32
  deriving DecidableEq, Repr

def StreamHeader.hasAudio (h : StreamHeader) : Bool := h.audioCodec != AUDIO_CODEC_NONE

structure FrameHeader where
  length : Int32
  ptsNs : Int64
  keyframe : Bool
  streamType : Int32
  deriving DecidableEq, Repr

/-- `"%08x".format(value)`. -/
def hex08 (value : Int32) : String :=
  let digits := Nat.toDigits 16 value.toUInt32.toNat
  String.ofList (List.replicate (8 - digits.length) '0' ++ digits)

def mimeOf (codec : Int32) : DataInput String :=
  if codec = 0 then pure "video/avc"
  else if codec = 1 then pure "video/hevc"
  else throw (.io s!"unknown codec id {codec}")

def readStreamHeader : DataInput StreamHeader := do
  let magic ← readInt
  require (magic = MAGIC) (.io s!"bad magic 0x{hex08 magic}")
  let version ← readUnsignedShort
  require (version = VERSION)
    (.io s!"unsupported protocol version {version} (expected {VERSION})")
  let width ← readUnsignedShort
  let height ← readUnsignedShort
  let framerate ← readUnsignedShort
  let codec ← readUnsignedByte
  let audioCodec ← readUnsignedByte
  let audioSampleRateHz ← readUnsignedShort
  let audioChannels ← readUnsignedByte
  let audioPreSkip ← readUnsignedShort
  skipBytes 5 -- reserved
  let mime ← mimeOf codec
  require (audioCodec = AUDIO_CODEC_NONE ∨ audioCodec = AUDIO_CODEC_OPUS)
    (.io s!"unknown audio codec id {audioCodec}")
  return { width, height, framerate, mime, audioCodec, audioSampleRateHz, audioChannels,
           audioPreSkip }

def readFrameHeader : DataInput FrameHeader := do
  let length ← readInt
  require (¬(length < 0 ∨ MAX_FRAME_BYTES < length)) (.io s!"implausible frame length {length}")
  let ptsNs ← readLong
  let flags ← readUnsignedByte
  let streamType ← readUnsignedByte
  skipBytes 2 -- reserved
  return { length, ptsNs, keyframe := flags &&& FLAG_KEYFRAME != 0, streamType }

/-- The buffer with `chunk` written into it from offset `off` on. -/
def writeAt (buffer : List UInt8) (off : Nat) (chunk : List UInt8) : List UInt8 :=
  buffer.take off ++ chunk ++ buffer.drop (off + chunk.length)

/-- The loop of `readFully`, with `read` of the `length` bytes already in the buffer. -/
def readFullyFrom (buffer : List UInt8) (length read : Nat) (input : ByteSource) :
    Except Throwable (List UInt8 × ByteSource) :=
  if _hread : read < length then
    if buffer.length < length then .error .indexOutOfBounds
    else
      match _hanswer : input.read (length - read) with
      | .eof => .error (.eof (some s!"stream closed after {read} of {length} bytes"))
      | .failed => .error .socket
      | .data chunk rest =>
        readFullyFrom (writeAt buffer read chunk) length (read + chunk.length) rest
  else .ok (buffer, input)
termination_by length - read
decreasing_by
  have := (ByteSource.read_data _hanswer).2.2.1 (by omega)
  omega

def readFully (buffer : List UInt8) (length : Int32) : DataInput (List UInt8) := fun input =>
  readFullyFrom buffer length.toNatClampNeg 0 input

end PadPlay.Device.Protocol
