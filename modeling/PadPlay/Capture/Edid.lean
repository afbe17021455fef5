import Mathlib.Data.Nat.Bitwise
import PadPlay.Lib.Checked

/-!
# EDID synthesis (`capture::evdi_backend::edid`)

CVT reduced-blanking timings and the 128-byte EDID made of one. The `u32` and `u64` arithmetic is
checked: `none` is an arithmetic fault.
-/

namespace PadPlay.Capture.Edid

open PadPlay.Lib

structure CvtTiming where
  hactive : Nat
  vactive : Nat
  htotal : Nat
  vtotal : Nat
  hsyncStart : Nat
  hsyncEnd : Nat
  vsyncStart : Nat
  vsyncEnd : Nat
  pixelClockKhz : Nat
  deriving DecidableEq, Repr

def MIN_VBLANK_US : Nat := 460
def H_SYNC : Nat := 32
def H_BLANK : Nat := 160
def V_FRONT_PORCH : Nat := 3
def MIN_V_BACK_PORCH : Nat := 6
def HV_FACTOR : Nat := 1000

/-- `vdisplay.is_multiple_of(k) && vdisplay * num / k == hdisplay`; the product is only formed when
the first test passes. -/
def isRatio (hdisplay vdisplay k num den : Nat) : Option Bool :=
  if vdisplay % k = 0 then do
    let scaled ← Checked.mul 32 vdisplay num
    return scaled / den == hdisplay
  else some false

/-- Vertical sync width, chosen from how closely the aspect ratio matches a small set of standard
ratios. -/
def vsyncWidth (hdisplay vdisplay : Nat) : Option Nat := do
  if ← isRatio hdisplay vdisplay 3 4 3 then return 4
  else if ← isRatio hdisplay vdisplay 9 16 9 then return 5
  else if ← isRatio hdisplay vdisplay 10 16 10 then return 6
  else if ← isRatio hdisplay vdisplay 4 5 4 then return 7
  else if ← isRatio hdisplay vdisplay 9 15 9 then return 7
  else return 10

/-- `u32::try_from(n).unwrap_or(default)`. -/
def toU32Or (default n : Nat) : Nat := if n < 2 ^ 32 then n else default

def CvtTiming.reducedBlanking (hdisplay vdisplay vrefresh : Nat) : Option CvtTiming := do
  let hactive ← Checked.sub hdisplay (hdisplay % 8)
  let vactive := vdisplay
  let vfieldrate := vrefresh
  let vsync ← vsyncWidth hdisplay vdisplay
  let tmp1 ← Checked.sub (HV_FACTOR * 1000000)
    (← Checked.mul 64 (MIN_VBLANK_US * HV_FACTOR) vfieldrate)
  let tmp2 := vactive
  let hperiod ← Checked.div tmp1 (← Checked.mul 64 tmp2 vfieldrate)
  let vbilines ← Checked.add 32 (toU32Or 0 (← Checked.div (MIN_VBLANK_US * HV_FACTOR) hperiod)) 1
  let vbilines := max vbilines (V_FRONT_PORCH + vsync + MIN_V_BACK_PORCH)
  let vtotal ← Checked.add 32 vactive vbilines
  let htotal ← Checked.add 32 hactive H_BLANK
  let hsyncEnd ← Checked.add 32 hactive (H_BLANK / 2)
  let hsyncStart ← Checked.sub hsyncEnd H_SYNC
  let vsyncStart ← Checked.add 32 vactive V_FRONT_PORCH
  let vsyncEnd ← Checked.add 32 vsyncStart vsync
  let clockKhz ← Checked.div (← Checked.mul 64 (← Checked.mul 64 htotal HV_FACTOR) 1000) hperiod
  return { hactive, vactive, htotal, vtotal, hsyncStart, hsyncEnd, vsyncStart, vsyncEnd,
           pixelClockKhz := toU32Or (2 ^ 32 - 1) clockKhz }

/-- The 18-byte EDID Detailed Timing Descriptor. The image size and the borders are left at zero. -/
def CvtTiming.detailedTimingDescriptor (t : CvtTiming) : Option (List UInt8) := do
  let clock10khz := t.pixelClockKhz / 10
  let hblank ← Checked.sub t.htotal t.hactive
  let vblank ← Checked.sub t.vtotal t.vactive
  let hfront ← Checked.sub t.hsyncStart t.hactive
  let hsyncWidth ← Checked.sub t.hsyncEnd t.hsyncStart
  let vfront ← Checked.sub t.vsyncStart t.vactive
  let vsyncWidth ← Checked.sub t.vsyncEnd t.vsyncStart
  let byte (n : Nat) : UInt8 := UInt8.ofNat n
  return [
    byte (clock10khz &&& 0xff),
    byte ((clock10khz >>> 8) &&& 0xff),
    byte (t.hactive &&& 0xff),
    byte (hblank &&& 0xff),
    byte (((t.hactive >>> 8) &&& 0xf) <<< 4) ||| byte ((hblank >>> 8) &&& 0xf),
    byte (t.vactive &&& 0xff),
    byte (vblank &&& 0xff),
    byte (((t.vactive >>> 8) &&& 0xf) <<< 4) ||| byte ((vblank >>> 8) &&& 0xf),
    byte (hfront &&& 0xff),
    byte (hsyncWidth &&& 0xff),
    byte (((vfront &&& 0xf) <<< 4) ||| (vsyncWidth &&& 0xf)),
    byte ((((hfront >>> 8) &&& 0x3) <<< 6) ||| (((hsyncWidth >>> 8) &&& 0x3) <<< 4) |||
      (((vfront >>> 4) &&& 0x3) <<< 2) ||| ((vsyncWidth >>> 4) &&& 0x3)),
    0, 0, 0, 0, 0,
    0b00011010]

/-- A 3-letter manufacturer code, 5 bits a letter. -/
def manufacturerId (l₀ l₁ l₂ : UInt8) : UInt16 :=
  let code (c : UInt8) : UInt16 := (c - 65 + 1).toUInt16
  (code l₀ <<< 10) ||| (code l₁ <<< 5) ||| code l₂

/-- `b"PadPlay"`. -/
def monitorName : List UInt8 := [0x50, 0x61, 0x64, 0x50, 0x6C, 0x61, 0x79]

def dummyDescriptor : List UInt8 := [0x00, 0x00, 0x00, 0x10] ++ List.replicate 14 0

/-- The first 127 bytes of the EDID around the bytes of its one timing, at the offsets given. -/
def edidBody (descriptor : List UInt8) : List UInt8 :=
  let mfg := manufacturerId 0x4D 0x52 0x45 -- "MRE"
  ([0x00, 0xFF, 0xFF, 0xFF, 0xFF, 0xFF, 0xFF, 0x00] : List UInt8) ++ -- 0
  [(mfg >>> 8).toUInt8, (mfg &&& 0xff).toUInt8, 0x01, 0x00] ++ -- 8: manufacturer, product code
  [0, 0, 0, 0, 1, 34, 1, 4] ++ -- 12: serial number, week, year, EDID 1.4
  [0b10100101, 0, 0, 120, 0b00000010] ++ -- 20: input, screen size, gamma, features
  List.replicate 13 0 ++ -- 25: chromaticity, established timings
  List.replicate 16 0x01 ++ -- 38: standard timings
  descriptor ++ -- 54
  [0x00, 0x00, 0x00, 0xFC, 0x00] ++ monitorName ++ [0x0A] ++ List.replicate 5 0x20 ++ -- 72
  dummyDescriptor ++ dummyDescriptor ++ -- 90, 108
  [0] -- 126: no extension blocks

/-- The EDID that advertises exactly one mode: the body, and the byte that makes its sum zero. -/
def buildEdid (width height refreshHz : Nat) : Option (List UInt8) := do
  let timing ← CvtTiming.reducedBlanking width height refreshHz
  let body := edidBody (← timing.detailedTimingDescriptor)
  let sum := (body.map UInt8.toNat).sum
  return body ++ [UInt8.ofNat (256 - sum % 256)]

/-! ## What a timing is made of -/

/-- A timing the computation returns, field by field, with the horizontal period it was computed
from. -/
structure ReducedBlanking (hdisplay vdisplay vrefresh vsync hperiod : Nat) (t : CvtTiming) :
    Prop where
  hactive : t.hactive = hdisplay - hdisplay % 8
  vactive : t.vactive = vdisplay
  vsync_eq : vsyncWidth hdisplay vdisplay = some vsync
  nonzero : vdisplay * vrefresh ≠ 0
  hperiod_eq : hperiod = (1000000000 - 460000 * vrefresh) / (vdisplay * vrefresh)
  hperiod_ne : hperiod ≠ 0
  vtotal : t.vtotal = vdisplay + max (460000 / hperiod + 1) (9 + vsync)
  htotal : t.htotal = t.hactive + 160
  hsyncStart : t.hsyncStart = t.hactive + 48
  hsyncEnd : t.hsyncEnd = t.hactive + 80
  vsyncStart : t.vsyncStart = t.vactive + 3
  vsyncEnd : t.vsyncEnd = t.vactive + 3 + vsync
  pixelClock : t.pixelClockKhz = toU32Or (2 ^ 32 - 1) (t.htotal * 1000 * 1000 / hperiod)

/-- **What a computed timing is**: every step that can fault, taken apart in order. -/
theorem reducedBlanking_some {hdisplay vdisplay vrefresh : Nat} {t : CvtTiming}
    (h : CvtTiming.reducedBlanking hdisplay vdisplay vrefresh = some t) :
    ∃ vsync hperiod, ReducedBlanking hdisplay vdisplay vrefresh vsync hperiod t := by
  unfold CvtTiming.reducedBlanking at h
  obtain ⟨hactive, hhactive, h⟩ := Option.bind_eq_some_iff.1 h
  obtain ⟨vsync, hvsync, h⟩ := Option.bind_eq_some_iff.1 h
  obtain ⟨blank, hblank, h⟩ := Option.bind_eq_some_iff.1 h
  obtain ⟨tmp1, htmp1, h⟩ := Option.bind_eq_some_iff.1 h
  obtain ⟨lines, hlines, h⟩ := Option.bind_eq_some_iff.1 h
  obtain ⟨hperiod, hhperiod, h⟩ := Option.bind_eq_some_iff.1 h
  obtain ⟨quotient, hquotient, h⟩ := Option.bind_eq_some_iff.1 h
  obtain ⟨vbilines, hvbilines, h⟩ := Option.bind_eq_some_iff.1 h
  obtain ⟨vtotal, hvtotal, h⟩ := Option.bind_eq_some_iff.1 h
  obtain ⟨htotal, hhtotal, h⟩ := Option.bind_eq_some_iff.1 h
  obtain ⟨hsyncEnd, hhsyncEnd, h⟩ := Option.bind_eq_some_iff.1 h
  obtain ⟨hsyncStart, hhsyncStart, h⟩ := Option.bind_eq_some_iff.1 h
  obtain ⟨vsyncStart, hvsyncStart, h⟩ := Option.bind_eq_some_iff.1 h
  obtain ⟨vsyncEnd, hvsyncEnd, h⟩ := Option.bind_eq_some_iff.1 h
  obtain ⟨clock₁, hclock₁, h⟩ := Option.bind_eq_some_iff.1 h
  obtain ⟨clock₂, hclock₂, h⟩ := Option.bind_eq_some_iff.1 h
  obtain ⟨clockKhz, hclockKhz, h⟩ := Option.bind_eq_some_iff.1 h
  cases h
  simp only [Checked.sub_eq_some, Checked.add_eq_some, Checked.mul_eq_some, Checked.div_eq_some]
    at hhactive hblank htmp1 hlines hhperiod hquotient hvbilines hvtotal hhtotal hhsyncEnd
      hhsyncStart hvsyncStart hvsyncEnd hclock₁ hclock₂ hclockKhz
  have hsmall : toU32Or 0 quotient = quotient := by
    have : quotient ≤ MIN_VBLANK_US * HV_FACTOR := hquotient.2 ▸ Nat.div_le_self ..
    rw [toU32Or, if_pos (Nat.lt_of_le_of_lt this (by decide))]
  obtain ⟨-, rfl⟩ := hhactive
  obtain ⟨-, rfl⟩ := hblank
  obtain ⟨-, rfl⟩ := htmp1
  obtain ⟨-, rfl⟩ := hlines
  obtain ⟨hnonzero, rfl⟩ := hhperiod
  obtain ⟨hperiod_ne, rfl⟩ := hquotient
  obtain ⟨-, rfl⟩ := hvbilines
  obtain ⟨-, rfl⟩ := hvtotal
  obtain ⟨-, rfl⟩ := hhtotal
  obtain ⟨-, rfl⟩ := hhsyncEnd
  obtain ⟨-, rfl⟩ := hhsyncStart
  obtain ⟨-, rfl⟩ := hvsyncStart
  obtain ⟨-, rfl⟩ := hvsyncEnd
  obtain ⟨-, rfl⟩ := hclock₁
  obtain ⟨-, rfl⟩ := hclock₂
  obtain ⟨-, rfl⟩ := hclockKhz
  refine ⟨vsync, _, rfl, rfl, hvsync, hnonzero, rfl, hperiod_ne, ?_, rfl, ?_, rfl, rfl, rfl, rfl⟩
  · have hporch : V_FRONT_PORCH + vsync + MIN_V_BACK_PORCH = 9 + vsync := by
      simp only [V_FRONT_PORCH, MIN_V_BACK_PORCH]; omega
    simp only [hsmall, hporch]
    simp only [MIN_VBLANK_US, HV_FACTOR, Nat.reduceMul]
  · simp only [H_BLANK, H_SYNC]; omega

/-! ## Bytes of more than one quantity -/

theorem low_byte (n : Nat) : (UInt8.ofNat (n &&& 0xff)).toNat = n % 256 := by
  have h : n &&& 0xff = n % 256 := Nat.and_two_pow_sub_one_eq_mod n 8
  rw [h, UInt8.toNat_ofNat']
  omega

/-- The high four bits of two quantities share a byte. -/
theorem shared_byte (m n : Nat) :
    (UInt8.ofNat (((m >>> 8) &&& 0xf) <<< 4) ||| UInt8.ofNat ((n >>> 8) &&& 0xf)).toNat =
      16 * (m / 256 % 16) + n / 256 % 16 := by
  have hm : (m >>> 8) &&& 0xf = m / 256 % 16 := by
    rw [Nat.shiftRight_eq_div_pow]
    exact Nat.and_two_pow_sub_one_eq_mod _ 4
  have hn : (n >>> 8) &&& 0xf = n / 256 % 16 := by
    rw [Nat.shiftRight_eq_div_pow]
    exact Nat.and_two_pow_sub_one_eq_mod _ 4
  have hnibbles : ∀ a < 16, ∀ b < 16,
      (UInt8.ofNat (a <<< 4) ||| UInt8.ofNat b).toNat = 16 * a + b := by decide
  rw [hm, hn]
  exact hnibbles _ (Nat.mod_lt _ (by decide)) _ (Nat.mod_lt _ (by decide))

end PadPlay.Capture.Edid
