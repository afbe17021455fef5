import PadPlay.Capture.Edid

/-!
# The detailed timing descriptor

What a reader of the EDID makes of the 18 bytes: every quantity of the timing, as far as its field
holds it (`decodeDescriptor_eq`). The fields of the blanking, the porches and the syncs have room
for all that a computed timing has; those of the active size and of the pixel clock do not
(`descriptor_decodes_iff`).
-/

namespace PadPlay.Capture.Edid

open PadPlay.Lib

/-! ## The EDID layout -/

/-- A timing as the descriptor gives it, the pixel clock in units of 10 kHz. -/
structure DetailedTiming where
  clock10khz : Nat
  hactive : Nat
  hblank : Nat
  vactive : Nat
  vblank : Nat
  hfront : Nat
  hsyncWidth : Nat
  vfront : Nat
  vsyncWidth : Nat
  deriving DecidableEq, Repr

/-- The EDID layout: low bytes, and the high bits of up to four quantities in shared ones. -/
def decodeDescriptor (descriptor : List UInt8) : DetailedTiming :=
  let d (i : Nat) : Nat := (descriptor.getD i 0).toNat
  { clock10khz := d 0 + 256 * d 1
    hactive := d 2 + 256 * (d 4 / 16)
    hblank := d 3 + 256 * (d 4 % 16)
    vactive := d 5 + 256 * (d 7 / 16)
    vblank := d 6 + 256 * (d 7 % 16)
    hfront := d 8 + 256 * (d 11 / 64)
    hsyncWidth := d 9 + 256 * (d 11 / 16 % 4)
    vfront := d 10 / 16 + 16 * (d 11 / 4 % 4)
    vsyncWidth := d 10 % 16 + 16 * (d 11 % 4) }

/-- The porch and the sync width that share a byte. -/
private theorem vertical_byte (m n : Nat) :
    (UInt8.ofNat (((m &&& 0xf) <<< 4) ||| (n &&& 0xf))).toNat = 16 * (m % 16) + n % 16 := by
  have hm : m &&& 0xf = m % 16 := Nat.and_two_pow_sub_one_eq_mod _ 4
  have hn : n &&& 0xf = n % 16 := Nat.and_two_pow_sub_one_eq_mod _ 4
  have hnibbles : ∀ a < 16, ∀ b < 16, (UInt8.ofNat ((a <<< 4) ||| b)).toNat = 16 * a + b := by
    decide
  rw [hm, hn]
  exact hnibbles _ (Nat.mod_lt _ (by decide)) _ (Nat.mod_lt _ (by decide))

/-- The high bits of the porches and the sync widths. -/
private theorem high_bits (k l m n : Nat) :
    (UInt8.ofNat ((((k >>> 8) &&& 0x3) <<< 6) ||| (((l >>> 8) &&& 0x3) <<< 4) |||
      (((m >>> 4) &&& 0x3) <<< 2) ||| ((n >>> 4) &&& 0x3))).toNat =
      64 * (k / 256 % 4) + 16 * (l / 256 % 4) + 4 * (m / 16 % 4) + n / 16 % 4 := by
  have hbits (n s : Nat) : (n >>> s) &&& 0x3 = n / 2 ^ s % 4 := by
    rw [Nat.shiftRight_eq_div_pow]
    exact Nat.and_two_pow_sub_one_eq_mod _ 2
  have hpairs : ∀ a < 4, ∀ b < 4, ∀ c < 4, ∀ d < 4,
      (UInt8.ofNat ((a <<< 6) ||| (b <<< 4) ||| (c <<< 2) ||| d)).toNat =
        64 * a + 16 * b + 4 * c + d := by decide
  rw [hbits, hbits, hbits, hbits]
  exact hpairs _ (Nat.mod_lt _ (by decide)) _ (Nat.mod_lt _ (by decide)) _
    (Nat.mod_lt _ (by decide)) _ (Nat.mod_lt _ (by decide))

/-- **What is read back**: each quantity up to the width of its field. -/
theorem decodeDescriptor_eq {t : CvtTiming} {descriptor : List UInt8}
    (h : t.detailedTimingDescriptor = some descriptor) :
    decodeDescriptor descriptor =
      { clock10khz := t.pixelClockKhz / 10 % 65536
        hactive := t.hactive % 4096
        hblank := (t.htotal - t.hactive) % 4096
        vactive := t.vactive % 4096
        vblank := (t.vtotal - t.vactive) % 4096
        hfront := (t.hsyncStart - t.hactive) % 1024
        hsyncWidth := (t.hsyncEnd - t.hsyncStart) % 1024
        vfront := (t.vsyncStart - t.vactive) % 64
        vsyncWidth := (t.vsyncEnd - t.vsyncStart) % 64 } := by
  unfold CvtTiming.detailedTimingDescriptor at h
  obtain ⟨hblank, hhblank, h⟩ := Option.bind_eq_some_iff.1 h
  obtain ⟨vblank, hvblank, h⟩ := Option.bind_eq_some_iff.1 h
  obtain ⟨hfront, hhfront, h⟩ := Option.bind_eq_some_iff.1 h
  obtain ⟨hsyncWidth, hhsyncWidth, h⟩ := Option.bind_eq_some_iff.1 h
  obtain ⟨vfront, hvfront, h⟩ := Option.bind_eq_some_iff.1 h
  obtain ⟨vsyncWidth, hvsyncWidth, h⟩ := Option.bind_eq_some_iff.1 h
  rw [Checked.sub_eq_some] at hhblank hvblank hhfront hhsyncWidth hvfront hvsyncWidth
  rw [hhblank.2, hvblank.2, hhfront.2, hhsyncWidth.2, hvfront.2, hvsyncWidth.2]
  cases h
  have hclock : (t.pixelClockKhz / 10) >>> 8 = t.pixelClockKhz / 10 / 256 :=
    Nat.shiftRight_eq_div_pow _ 8
  unfold decodeDescriptor
  simp only [List.getD_cons_succ, List.getD_cons_zero, low_byte, shared_byte,
    vertical_byte, high_bits, hclock, DetailedTiming.mk.injEq]
  refine ⟨?_, ?_, ?_, ?_, ?_, ?_, ?_, ?_, ?_⟩ <;> omega

/-! ## What fits -/

/-- The descriptor gives the timing back, and is read as one. -/
structure Recovers (t : CvtTiming) (r : DetailedTiming) : Prop where
  hactive : r.hactive = t.hactive
  hblank : r.hblank = t.htotal - t.hactive
  vactive : r.vactive = t.vactive
  vblank : r.vblank = t.vtotal - t.vactive
  hfront : r.hfront = t.hsyncStart - t.hactive
  hsyncWidth : r.hsyncWidth = t.hsyncEnd - t.hsyncStart
  vfront : r.vfront = t.vsyncStart - t.vactive
  vsyncWidth : r.vsyncWidth = t.vsyncEnd - t.vsyncStart
  clock : t.pixelClockKhz ≤ 10 * r.clock10khz + 10 ∧ 10 * r.clock10khz ≤ t.pixelClockKhz + 10
  timing : r.clock10khz ≠ 0

/-- The time a line takes, in nanoseconds: what is left of the frame, over its visible lines. -/
def linePeriod (height refreshHz : Nat) : Nat :=
  (1000000000 - 460000 * refreshHz) / (height * refreshHz)

/-- The mode is less than 4096 pixels wide and high, and its pixel clock, a line of `width` in
whole characters and 160 pixels of blanking to the line period, is at least 10 kHz and below
655.36 MHz. -/
structure Encodable (width height refreshHz : Nat) : Prop where
  wide : width < 4096
  high : height < 4096
  least : 10 * linePeriod height refreshHz ≤ (width - width % 8 + 160) * 1000000
  most : (width - width % 8 + 160) * 1000000 < 655360 * linePeriod height refreshHz

theorem isRatio_some {hdisplay vdisplay k num den : Nat} {α : Type} {f : Bool → Option α} {a : α}
    (h : (isRatio hdisplay vdisplay k num den).bind f = some a) :
    f true = some a ∨ f false = some a := by
  obtain ⟨b, -, h⟩ := Option.bind_eq_some_iff.1 h
  cases b with
  | true => exact .inl h
  | false => exact .inr h

theorem vsyncWidth_bounds {hdisplay vdisplay vsync : Nat}
    (h : vsyncWidth hdisplay vdisplay = some vsync) : 0 < vsync ∧ vsync ≤ 10 := by
  unfold vsyncWidth at h
  rcases isRatio_some h with h | h
  · cases h
    decide
  rcases isRatio_some h with h | h
  · cases h
    decide
  rcases isRatio_some h with h | h
  · cases h
    decide
  rcases isRatio_some h with h | h
  · cases h
    decide
  rcases isRatio_some h with h | h
  · cases h
    decide
  · cases h
    decide

section
variable {width height refreshHz vsync hperiod : Nat} {t : CvtTiming}

/-- A computed timing has a descriptor. -/
theorem ReducedBlanking.described (h : ReducedBlanking width height refreshHz vsync hperiod t) :
    ∃ descriptor, t.detailedTimingDescriptor = some descriptor := by
  have hsub {a b : Nat} (hle : b ≤ a) : Checked.sub a b = some (a - b) :=
    Checked.sub_eq_some.2 ⟨hle, rfl⟩
  have hhtotal := h.htotal
  have hvtotal := h.vtotal
  have hvactive := h.vactive
  have hhsyncStart := h.hsyncStart
  have hhsyncEnd := h.hsyncEnd
  have hvsyncStart := h.vsyncStart
  have hvsyncEnd := h.vsyncEnd
  unfold CvtTiming.detailedTimingDescriptor
  rw [hsub (by omega : t.hactive ≤ t.htotal), hsub (by omega : t.vactive ≤ t.vtotal),
    hsub (by omega : t.hactive ≤ t.hsyncStart), hsub (by omega : t.hsyncStart ≤ t.hsyncEnd),
    hsub (by omega : t.vactive ≤ t.vsyncStart), hsub (by omega : t.vsyncStart ≤ t.vsyncEnd)]
  exact ⟨_, rfl⟩

/-- The pixel clock has its field exactly when the line of the mode is within bounds. -/
theorem ReducedBlanking.clock_iff (h : ReducedBlanking width height refreshHz vsync hperiod t) :
    10 ≤ t.pixelClockKhz ∧ t.pixelClockKhz < 655360 ↔
      10 * linePeriod height refreshHz ≤ (width - width % 8 + 160) * 1000000 ∧
        (width - width % 8 + 160) * 1000000 < 655360 * linePeriod height refreshHz := by
  have hperiod_eq : linePeriod height refreshHz = hperiod := h.hperiod_eq.symm
  have hpos : 0 < hperiod := Nat.pos_of_ne_zero h.hperiod_ne
  have hclock : t.pixelClockKhz =
      toU32Or (2 ^ 32 - 1) ((width - width % 8 + 160) * 1000000 / hperiod) := by
    rw [h.pixelClock, h.htotal, h.hactive, Nat.mul_assoc]
  rw [hperiod_eq, ← Nat.le_div_iff_mul_le hpos, ← Nat.div_lt_iff_lt_mul hpos, hclock]
  generalize (width - width % 8 + 160) * 1000000 / hperiod = clock
  unfold toU32Or
  split <;> omega

end

/-- **The descriptor decodes to its timing** exactly when the mode is less than 4096 pixels wide and
high and the pixel clock has its field. -/
theorem descriptor_decodes_iff (width height refreshHz : Nat) (timing : CvtTiming)
    (htiming : CvtTiming.reducedBlanking width height refreshHz = some timing) :
    ∃ descriptor, timing.detailedTimingDescriptor = some descriptor ∧
      (Recovers timing (decodeDescriptor descriptor) ↔ Encodable width height refreshHz) := by
  obtain ⟨vsync, hperiod, hrb⟩ := reducedBlanking_some htiming
  obtain ⟨descriptor, hdescriptor⟩ := hrb.described
  refine ⟨descriptor, hdescriptor, ?_⟩
  rw [decodeDescriptor_eq hdescriptor]
  have hclock := hrb.clock_iff
  have hhactive := hrb.hactive
  have hvactive := hrb.vactive
  constructor
  · intro h
    have hsize := h.hactive
    have hlines := h.vactive
    have hnear := h.clock
    have htiming := h.timing
    dsimp only at hsize hlines hnear htiming
    obtain ⟨hleast, hmost⟩ := hclock.1 (by omega)
    exact ⟨by omega, by omega, hleast, hmost⟩
  · intro h
    obtain ⟨hleast, hmost⟩ := hclock.2 ⟨h.least, h.most⟩
    have hwide := h.wide
    have hhigh := h.high
    have hhtotal := hrb.htotal
    have hhsyncStart := hrb.hsyncStart
    have hhsyncEnd := hrb.hsyncEnd
    have hvsyncStart := hrb.vsyncStart
    have hvsyncEnd := hrb.vsyncEnd
    have hvsync := (vsyncWidth_bounds hrb.vsync_eq).2
    -- a line that is long enough for the clock leaves few lines of blanking
    have hvblank : timing.vtotal - timing.vactive < 4096 := by
      have hmost := h.most
      have hperiod_eq : linePeriod height refreshHz = hperiod := hrb.hperiod_eq.symm
      have hlong : 245 ≤ hperiod := by omega
      have hlines : 460000 / hperiod ≤ 460000 / 245 := Nat.div_le_div_left hlong (by decide)
      have hvtotal := hrb.vtotal
      omega
    constructor <;> dsimp only <;> omega

/-- The default panel's 1920x1200 at 60 Hz. -/
theorem descriptor_decodes_default :
    ∃ timing, CvtTiming.reducedBlanking 1920 1200 60 = some timing ∧
      ∃ descriptor, timing.detailedTimingDescriptor = some descriptor ∧
        (Recovers timing (decodeDescriptor descriptor) ↔ Encodable 1920 1200 60) :=
  ⟨⟨1920, 1200, 2080, 1235, 1968, 2000, 1203, 1209, 154017⟩, by decide +kernel,
    descriptor_decodes_iff 1920 1200 60 _ (by decide +kernel)⟩

/-- The full panel of a 2880x1800 tablet at 120 Hz: the pixel clock of 695.016 MHz comes back as
39.65 MHz. -/
theorem descriptor_clock_wraps :
    ∃ timing descriptor, CvtTiming.reducedBlanking 2880 1800 120 = some timing ∧
      timing.detailedTimingDescriptor = some descriptor ∧
      ¬Recovers timing (decodeDescriptor descriptor) := by
  refine ⟨⟨2880, 1800, 3040, 1906, 2928, 2960, 1803, 1809, 695016⟩,
    [125, 15, 64, 160, 176, 8, 106, 112, 48, 32, 54, 0, 0, 0, 0, 0, 0, 26], by decide +kernel,
    by decide +kernel, ?_⟩
  intro h
  exact absurd h.clock (by decide)

end PadPlay.Capture.Edid
