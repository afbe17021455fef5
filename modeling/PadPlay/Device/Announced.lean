import PadPlay.Device.Reading
import PadPlay.Transport.Sender

/-!
# What the stream header announces

The host builds a header from a size, a frame rate and perhaps audio parameters, and the device
reads it. The audio parameters arrive as they are or are refused; the size and the frame rate arrive
as they are just when they fit into 16 bits (`announces_iff`).
-/

namespace PadPlay.Device.Protocol

open PadPlay.Lib PadPlay.Device.DataInput PadPlay.Transport

/-- The audio track the device is told of. -/
def ReportsAudio (audio : Option AudioParams) (h : StreamHeader) : Prop :=
  match audio with
  | none => h.hasAudio = false
  | some params =>
    h.hasAudio = true ∧ h.audioCodec = AUDIO_CODEC_OPUS ∧
      h.audioSampleRateHz.toInt = params.sampleRateHz.toNat ∧
      h.audioChannels.toInt = params.channels.toNat ∧ h.audioPreSkip.toInt = params.preSkip.toNat

/-- The device's header has exactly the parameters the host was given. -/
structure Reports (width height framerate : UInt32) (audio : Option AudioParams)
    (h : StreamHeader) : Prop where
  width : h.width.toInt = width.toNat
  height : h.height.toInt = height.toNat
  framerate : h.framerate.toInt = framerate.toNat
  audio : ReportsAudio audio h

def Fits16 (n : UInt32) : Prop := n.toNat < 2 ^ 16

instance (n : UInt32) : Decidable (Fits16 n) := inferInstanceAs (Decidable (_ < _))

/-- The wire has fields for the parameters. -/
def Representable (width height framerate : UInt32) (audio : Option AudioParams) : Prop :=
  Fits16 width ∧ Fits16 height ∧ Fits16 framerate ∧ ∀ params ∈ audio, Fits16 params.sampleRateHz

/-- What is announced is what was given, and what the wire has no field for is refused. -/
structure Announces (width height framerate : UInt32) (audio : Option AudioParams) : Prop where
  exact : ∀ header, streamHeader width height framerate audio = .ok header →
    ∃ h, Parses readStreamHeader header.encode h ∧ Reports width height framerate audio h
  refused : ¬Representable width height framerate audio →
    ∃ e, streamHeader width height framerate audio = .error e

/-! ## The fields -/

theorem toInt_ofNat_of_lt {n : Nat} (h : n < 2 ^ 16) : (Int32.ofNat n).toInt = n := by
  rw [Int32.toInt_ofNat']
  exact Int.bmod_eq_of_le (by omega) (by simp only [Int32.size]; omega)

/-- A field arrives as it was given just when the cast loses nothing. -/
theorem cast_iff (n : UInt32) :
    (Int32.ofNat n.toUInt16.toNat).toInt = n.toNat ↔ Fits16 n := by
  have hcast : n.toUInt16.toNat = n.toNat % 2 ^ 16 := UInt32.toNat_toUInt16 ..
  rw [toInt_ofNat_of_lt n.toUInt16.toNat_lt, hcast, Fits16]
  omega

section
variable {width height framerate : UInt32} {audio : Option AudioParams}

theorem streamHeader_ok {header : PadPlay.Protocol.StreamHeader}
    (h : streamHeader width height framerate audio = .ok header) :
    (∀ params ∈ audio, Fits16 params.sampleRateHz) ∧ header.width = width.toUInt16 ∧
      header.height = height.toUInt16 ∧ header.framerate = framerate.toUInt16 ∧
      ReportsAudio audio (receivedHeader header) := by
  cases audio with
  | none =>
    cases h
    exact ⟨nofun, rfl, rfl, rfl, rfl⟩
  | some params =>
    by_cases hfits : params.sampleRateHz.toNat < 2 ^ 16
    · simp only [streamHeader, if_pos hfits] at h
      cases h
      have hrate := (cast_iff params.sampleRateHz).2 hfits
      have hchannels : (Int32.ofNat params.channels.toNat).toInt = params.channels.toNat :=
        toInt_ofNat_of_lt (Nat.lt_trans params.channels.toNat_lt (by decide))
      have hpreSkip : (Int32.ofNat params.preSkip.toNat).toInt = params.preSkip.toNat :=
        toInt_ofNat_of_lt params.preSkip.toNat_lt
      refine ⟨?_, rfl, rfl, rfl, rfl, rfl, hrate, hchannels, hpreSkip⟩
      intro params' hmem
      cases hmem
      exact hfits
    · simp only [streamHeader, if_neg hfits] at h
      cases h

theorem streamHeader_of_fits (h : ∀ params ∈ audio, Fits16 params.sampleRateHz) :
    ∃ header, streamHeader width height framerate audio = .ok header := by
  cases audio with
  | none => exact ⟨_, rfl⟩
  | some params =>
    have hfits : params.sampleRateHz.toNat < 2 ^ 16 := h params rfl
    simp only [streamHeader, if_pos hfits]
    exact ⟨_, rfl⟩

theorem streamHeader_refused (h : ¬∀ params ∈ audio, Fits16 params.sampleRateHz) :
    ∃ e, streamHeader width height framerate audio = .error e := by
  cases hheader : streamHeader width height framerate audio with
  | ok header => exact absurd (streamHeader_ok hheader).1 h
  | error e => exact ⟨e, rfl⟩

/-- A header that is announced as it should be fits. -/
theorem Announces.fits (h : Announces width height framerate audio)
    (haudio : ∀ params ∈ audio, Fits16 params.sampleRateHz) :
    Fits16 width ∧ Fits16 height ∧ Fits16 framerate := by
  obtain ⟨header, hheader⟩ :=
    @streamHeader_of_fits width height framerate audio haudio
  obtain ⟨received, hparses, hreports⟩ := h.exact header hheader
  obtain ⟨-, hwidth, hheight, hframerate, -⟩ := streamHeader_ok hheader
  cases Parses.unique hparses (parses_readStreamHeader header)
  have hwidth' := hreports.width
  have hheight' := hreports.height
  have hframerate' := hreports.framerate
  rw [receivedHeader] at hwidth' hheight' hframerate'
  rw [hwidth] at hwidth'
  rw [hheight] at hheight'
  rw [hframerate] at hframerate'
  exact ⟨(cast_iff width).1 hwidth', (cast_iff height).1 hheight',
    (cast_iff framerate).1 hframerate'⟩

end

/-- **A stream header announces what it was given**, or is refused, exactly when the size and the
frame rate fit into 16 bits or the audio is refused. -/
theorem announces_iff (width height framerate : UInt32) (audio : Option AudioParams) :
    Announces width height framerate audio ↔
      Fits16 width ∧ Fits16 height ∧ Fits16 framerate ∨
        ∃ params ∈ audio, ¬Fits16 params.sampleRateHz := by
  constructor
  · intro h
    by_cases haudio : ∀ params ∈ audio, Fits16 params.sampleRateHz
    · exact .inl (h.fits haudio)
    · simp only [not_forall] at haudio
      obtain ⟨params, hmem, hfits⟩ := haudio
      exact .inr ⟨params, hmem, hfits⟩
  · rintro (⟨hwidth, hheight, hframerate⟩ | ⟨params, hmem, hrate⟩)
    · constructor
      · intro header hheader
        obtain ⟨-, hwidth', hheight', hframerate', haudio⟩ := streamHeader_ok hheader
        refine ⟨receivedHeader header, parses_readStreamHeader header, ?_, ?_, ?_, haudio⟩
        · rw [receivedHeader, hwidth']
          exact (cast_iff width).2 hwidth
        · rw [receivedHeader, hheight']
          exact (cast_iff height).2 hheight
        · rw [receivedHeader, hframerate']
          exact (cast_iff framerate).2 hframerate
      · intro hno
        refine streamHeader_refused ?_
        intro haudio
        exact hno ⟨hwidth, hheight, hframerate, haudio⟩
    · have hno : ¬∀ params ∈ audio, Fits16 params.sampleRateHz := fun h => hrate (h params hmem)
      obtain ⟨e, he⟩ := @streamHeader_refused width height framerate audio hno
      refine ⟨?_, fun _ => ⟨e, he⟩⟩
      intro header hheader
      rw [he] at hheader
      cases hheader

/-- A width of 65538 pixels is announced as one of 2. -/
theorem width_truncated : ¬Announces 65538 1200 60 none := by
  intro h
  have hfits := (h.fits nofun).1
  exact absurd hfits (by decide)

end PadPlay.Device.Protocol
