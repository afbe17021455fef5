import Mathlib.Tactic.Ring
import PadPlay.Capture.Descriptor

/-!
# What a computed timing is worth

The sync pulses lie in order between the active area and the totals, the vertical blanking lasts
long enough, and the frame period is the one asked for, up to one line and what both divisions
round off (`reducedBlanking_timely`). The EDID made of it is a block of 128 bytes whose sum is zero.
-/

namespace PadPlay.Capture.Edid

open PadPlay.Lib

/-! ## The checksum -/

theorem edidBody_length {descriptor : List UInt8} (h : descriptor.length = 18) :
    (edidBody descriptor).length = 127 := by
  unfold edidBody
  simp only [List.length_append, h]
  rfl

theorem detailedTimingDescriptor_length {t : CvtTiming} {descriptor : List UInt8}
    (h : t.detailedTimingDescriptor = some descriptor) : descriptor.length = 18 := by
  unfold CvtTiming.detailedTimingDescriptor at h
  obtain ⟨hblank, -, h⟩ := Option.bind_eq_some_iff.1 h
  obtain ⟨vblank, -, h⟩ := Option.bind_eq_some_iff.1 h
  obtain ⟨hfront, -, h⟩ := Option.bind_eq_some_iff.1 h
  obtain ⟨hsyncWidth, -, h⟩ := Option.bind_eq_some_iff.1 h
  obtain ⟨vfront, -, h⟩ := Option.bind_eq_some_iff.1 h
  obtain ⟨vsyncWidth, -, h⟩ := Option.bind_eq_some_iff.1 h
  cases h
  rfl

/-- A byte that takes a sum to a multiple of 256. -/
theorem checksum_byte (sum : Nat) : (sum + (UInt8.ofNat (256 - sum % 256)).toNat) % 256 = 0 := by
  rw [UInt8.toNat_ofNat']
  omega

/-- A block of 128 bytes that sum to zero. -/
structure Checked128 (edid : List UInt8) : Prop where
  length : edid.length = 128
  sum : (edid.map UInt8.toNat).sum % 256 = 0

theorem buildEdid_some {width height refreshHz : Nat} {t : CvtTiming} {descriptor : List UInt8}
    (h : CvtTiming.reducedBlanking width height refreshHz = some t)
    (hdescriptor : t.detailedTimingDescriptor = some descriptor) :
    buildEdid width height refreshHz = some (edidBody descriptor ++
      [UInt8.ofNat (256 - ((edidBody descriptor).map UInt8.toNat).sum % 256)]) := by
  simp only [buildEdid, h, hdescriptor, Option.bind_eq_bind, Option.bind_some, Option.pure_def]

/-- A computed timing has its block. -/
theorem buildEdid_checked {width height refreshHz : Nat} {t : CvtTiming}
    (h : CvtTiming.reducedBlanking width height refreshHz = some t) :
    ∃ edid, buildEdid width height refreshHz = some edid ∧ Checked128 edid := by
  obtain ⟨vsync, hperiod, hrb⟩ := reducedBlanking_some h
  obtain ⟨descriptor, hdescriptor⟩ := hrb.described
  have hlength := edidBody_length (detailedTimingDescriptor_length hdescriptor)
  refine ⟨_, buildEdid_some h hdescriptor, ?_, ?_⟩
  · rw [List.length_append, hlength]
    rfl
  · rw [List.map_append, List.sum_append, List.map_singleton, List.sum_singleton]
    exact checksum_byte _

/-! ## The timing -/

/-- The lines of blanking that fill the time asked for, which the least porches may exceed. -/
def Unforced (height refreshHz : Nat) (t : CvtTiming) : Prop :=
  V_FRONT_PORCH + (t.vsyncEnd - t.vsyncStart) + MIN_V_BACK_PORCH ≤
    MIN_VBLANK_US * HV_FACTOR / linePeriod height refreshHz + 1

/-- A mode whose pulses are in order and whose blanking and frame take the time they should, with
lines of `linePeriod` nanoseconds. -/
structure Timely (height refreshHz : Nat) (t : CvtTiming) : Prop where
  hsync : t.hactive < t.hsyncStart ∧ t.hsyncStart < t.hsyncEnd ∧ t.hsyncEnd < t.htotal
  vsync : t.vactive < t.vsyncStart ∧ t.vsyncStart < t.vsyncEnd
  backPorch : t.vsyncEnd + 6 ≤ t.vtotal
  blanking : 460000 < (t.vtotal - t.vactive) * linePeriod height refreshHz
  least : 1000000000 < refreshHz * t.vtotal * linePeriod height refreshHz + refreshHz * height
  most : Unforced height refreshHz t → refreshHz * t.vtotal * linePeriod height refreshHz ≤
    1000000000 + refreshHz * linePeriod height refreshHz

section
variable {width height refreshHz vsync hperiod : Nat} {t : CvtTiming}

/-- The visible lines and the blanking's share make up the frame, up to a nanosecond a line. -/
theorem ReducedBlanking.frame (h : ReducedBlanking width height refreshHz vsync hperiod t) :
    height * refreshHz * hperiod + 460000 * refreshHz ≤ 1000000000 ∧
      1000000000 < height * refreshHz * (hperiod + 1) + 460000 * refreshHz := by
  have hpos : 0 < height * refreshHz := Nat.pos_of_ne_zero h.nonzero
  have hbelow := Nat.mul_div_le (1000000000 - 460000 * refreshHz) (height * refreshHz)
  have habove := Nat.lt_mul_div_succ (1000000000 - 460000 * refreshHz) hpos
  have hleast : height * refreshHz * 1 ≤ height * refreshHz * hperiod :=
    Nat.mul_le_mul_left _ (Nat.pos_of_ne_zero h.hperiod_ne)
  rw [← h.hperiod_eq] at hbelow habove
  omega

theorem ReducedBlanking.blanking (h : ReducedBlanking width height refreshHz vsync hperiod t) :
    460000 < (t.vtotal - t.vactive) * hperiod := by
  have hpos : 0 < hperiod := Nat.pos_of_ne_zero h.hperiod_ne
  have hlines : 460000 / hperiod + 1 ≤ t.vtotal - t.vactive := by
    have hvtotal := h.vtotal
    have hvactive := h.vactive
    omega
  calc 460000 < hperiod * (460000 / hperiod + 1) := Nat.lt_mul_div_succ _ hpos
    _ ≤ hperiod * (t.vtotal - t.vactive) := Nat.mul_le_mul_left _ hlines
    _ = (t.vtotal - t.vactive) * hperiod := Nat.mul_comm _ _

/-- The period of the whole frame, split at the blanking. -/
theorem ReducedBlanking.period (h : ReducedBlanking width height refreshHz vsync hperiod t) :
    refreshHz * t.vtotal * hperiod =
      height * refreshHz * hperiod + refreshHz * ((t.vtotal - t.vactive) * hperiod) := by
  have hsplit : t.vtotal = height + (t.vtotal - t.vactive) := by
    have hvtotal := h.vtotal
    have hvactive := h.vactive
    omega
  generalize t.vtotal - t.vactive = lines at hsplit ⊢
  rw [hsplit]
  ring

end

/-- **A computed timing is in order and on time**, and so is its EDID. -/
theorem reducedBlanking_timely (width height refreshHz : Nat) (timing : CvtTiming)
    (htiming : CvtTiming.reducedBlanking width height refreshHz = some timing) :
    Timely height refreshHz timing ∧
      ∃ edid, buildEdid width height refreshHz = some edid ∧ Checked128 edid := by
  obtain ⟨vsync, hperiod, hrb⟩ := reducedBlanking_some htiming
  refine ⟨?_, buildEdid_checked htiming⟩
  have hline : linePeriod height refreshHz = hperiod := hrb.hperiod_eq.symm
  have hvsync := (vsyncWidth_bounds hrb.vsync_eq).1
  have hhtotal := hrb.htotal
  have hhsyncStart := hrb.hsyncStart
  have hhsyncEnd := hrb.hsyncEnd
  have hvactive := hrb.vactive
  have hvtotal := hrb.vtotal
  have hvsyncStart := hrb.vsyncStart
  have hvsyncEnd := hrb.vsyncEnd
  obtain ⟨hwithin, hnear⟩ := hrb.frame
  have hblanking := hrb.blanking
  have hperiod_split := hrb.period
  constructor
  · omega
  · omega
  · omega
  · rw [hline]
    exact hblanking
  · -- each of the `refreshHz` blankings lasts longer than its share of the second
    have hshare :
        460000 * refreshHz ≤ refreshHz * ((timing.vtotal - timing.vactive) * hperiod) := by
      rw [Nat.mul_comm]
      exact Nat.mul_le_mul_left _ (Nat.le_of_lt hblanking)
    rw [hline, hperiod_split, Nat.mul_comm refreshHz height]
    rw [Nat.mul_succ] at hnear
    omega
  · intro hunforced
    have hporch : V_FRONT_PORCH + (timing.vsyncEnd - timing.vsyncStart) + MIN_V_BACK_PORCH =
        9 + vsync := by
      rw [hvsyncEnd, hvsyncStart, V_FRONT_PORCH, MIN_V_BACK_PORCH]
      omega
    have hlines : timing.vtotal - timing.vactive = 460000 / hperiod + 1 := by
      rw [Unforced, hporch, hline] at hunforced
      simp only [MIN_VBLANK_US, HV_FACTOR, Nat.reduceMul] at hunforced
      omega
    have hfill : (timing.vtotal - timing.vactive) * hperiod ≤ 460000 + hperiod := by
      rw [hlines, Nat.succ_mul]
      exact Nat.add_le_add_right (Nat.div_mul_le_self _ _) _
    have hshare := Nat.mul_le_mul_left refreshHz hfill
    rw [hline, hperiod_split]
    rw [Nat.mul_add] at hshare
    omega

/-- The default panel's 1920x1200 at 60 Hz. -/
theorem reducedBlanking_timely_default :
    ∃ timing, CvtTiming.reducedBlanking 1920 1200 60 = some timing ∧ Timely 1200 60 timing ∧
      ∃ edid, buildEdid 1920 1200 60 = some edid ∧ Checked128 edid :=
  ⟨⟨1920, 1200, 2080, 1235, 1968, 2000, 1203, 1209, 154017⟩, by decide +kernel,
    reducedBlanking_timely 1920 1200 60 _ (by decide +kernel)⟩

end PadPlay.Capture.Edid
