import Mathlib.Tactic.Zify
import PadPlay.Lib.Checked
import PadPlay.Transport.Adb

/-!
# The streaming resolution (`transport::adb::stream_resolution`)

The size a panel is streamed at, as numbers: no operation on the way overflows
(`streamResolutionChecked_eq`), and the size is even, at most the panel's, of nearly its aspect
ratio, monotone in the width asked for and its own streaming resolution
(`streamResolution_scaled`).
-/

namespace PadPlay.Transport

open PadPlay.Lib

/-! ## Without wrapping -/

/-- `stream_resolution` in arithmetic that faults where a machine operation or the cast of the
height would lose something. -/
def streamResolutionChecked (panel : Panel) (maxWidth : UInt32) : Option (Nat × Nat) := do
  let width := max (min panel.width.toNat maxWidth.toNat) 2
  let product ← Checked.mul 64 width panel.height.toNat
  let height ← Checked.fit 32 (← Checked.div product panel.width.toNat)
  return (width - width % 2, max height 2 - max height 2 % 2)

/-- The width before it is made even. -/
def cappedWidth (panel : Panel) (maxWidth : UInt32) : Nat :=
  max (min panel.width.toNat maxWidth.toNat) 2

/-- The height that goes with it, before it is clamped and made even. -/
def scaledHeight (panel : Panel) (maxWidth : UInt32) : Nat :=
  cappedWidth panel maxWidth * panel.height.toNat / panel.width.toNat

section
variable (panel : Panel) (maxWidth : UInt32)

theorem Panel.width_pos : 0 < panel.width.toNat := by
  have hheight : panel.height.toNat ≠ 0 := fun h => panel.nonzero (UInt32.toNat_inj.1 h)
  have hle : panel.height.toNat ≤ panel.width.toNat := UInt32.le_iff_toNat_le.1 panel.landscape
  omega

theorem cappedWidth_lt : cappedWidth panel maxWidth < 2 ^ 32 := by
  have hwidth := panel.width.toNat_lt
  unfold cappedWidth
  omega

/-- No more lines than columns, since the panel has no more. -/
theorem scaledHeight_le : scaledHeight panel maxWidth ≤ cappedWidth panel maxWidth := by
  have hle : panel.height.toNat ≤ panel.width.toNat := UInt32.le_iff_toNat_le.1 panel.landscape
  calc scaledHeight panel maxWidth
      ≤ cappedWidth panel maxWidth * panel.width.toNat / panel.width.toNat :=
        Nat.div_le_div_right (Nat.mul_le_mul_left _ hle)
    _ = cappedWidth panel maxWidth := Nat.mul_div_cancel _ panel.width_pos

theorem product_lt : cappedWidth panel maxWidth * panel.height.toNat < 2 ^ 64 := by
  calc cappedWidth panel maxWidth * panel.height.toNat < 2 ^ 32 * 2 ^ 32 :=
        Nat.mul_lt_mul'' (cappedWidth_lt panel maxWidth) panel.height.toNat_lt
    _ = 2 ^ 64 := by decide

theorem streamResolutionChecked_some :
    streamResolutionChecked panel maxWidth =
      some (cappedWidth panel maxWidth - cappedWidth panel maxWidth % 2,
        max (scaledHeight panel maxWidth) 2 - max (scaledHeight panel maxWidth) 2 % 2) := by
  have hproduct : Checked.mul 64 (cappedWidth panel maxWidth) panel.height.toNat =
      some (cappedWidth panel maxWidth * panel.height.toNat) :=
    Checked.mul_eq_some.2 ⟨product_lt panel maxWidth, rfl⟩
  have hdiv : Checked.div (cappedWidth panel maxWidth * panel.height.toNat) panel.width.toNat =
      some (scaledHeight panel maxWidth) :=
    Checked.div_eq_some.2 ⟨Nat.ne_of_gt panel.width_pos, rfl⟩
  have hfit : Checked.fit 32 (scaledHeight panel maxWidth) = some (scaledHeight panel maxWidth) :=
    Checked.fit_eq_some.2
      ⟨Nat.lt_of_le_of_lt (scaledHeight_le panel maxWidth) (cappedWidth_lt panel maxWidth), rfl⟩
  unfold streamResolutionChecked
  simp only [cappedWidth] at hproduct hdiv ⊢
  simp only [hproduct, hdiv, hfit, Option.bind_eq_bind, Option.bind_some, Option.pure_def]

theorem streamResolution_toNat :
    (streamResolution panel maxWidth).1.toNat =
        cappedWidth panel maxWidth - cappedWidth panel maxWidth % 2 ∧
      (streamResolution panel maxWidth).2.toNat =
        max (scaledHeight panel maxWidth) 2 - max (scaledHeight panel maxWidth) 2 % 2 := by
  have htwo : (2 : UInt32).toNat = 2 := rfl
  have hwidth : (max (min panel.width maxWidth) 2).toNat = cappedWidth panel maxWidth := by
    rw [UInt32.toNat_max, UInt32.toNat_min, htwo, cappedWidth]
  have hheight : ((max (min panel.width maxWidth) 2).toUInt64 * panel.height.toUInt64 /
      panel.width.toUInt64).toUInt32.toNat = scaledHeight panel maxWidth := by
    rw [UInt64.toNat_toUInt32, UInt64.toNat_div, UInt64.toNat_mul, UInt32.toNat_toUInt64,
      UInt32.toNat_toUInt64, UInt32.toNat_toUInt64, hwidth,
      Nat.mod_eq_of_lt (product_lt panel maxWidth)]
    exact Nat.mod_eq_of_lt
      (Nat.lt_of_le_of_lt (scaledHeight_le panel maxWidth) (cappedWidth_lt panel maxWidth))
  simp only [streamResolution, align2_toNat, UInt32.toNat_max, hwidth, hheight, htwo, and_self]

/-- **No operation overflows**: the checked arithmetic gives the size the code gives. -/
theorem streamResolutionChecked_eq :
    streamResolutionChecked panel maxWidth =
      some ((streamResolution panel maxWidth).1.toNat,
        (streamResolution panel maxWidth).2.toNat) := by
  rw [streamResolutionChecked_some, (streamResolution_toNat panel maxWidth).1,
    (streamResolution_toNat panel maxWidth).2]

theorem streamResolution_width :
    (streamResolution panel maxWidth).1.toNat =
      max (min panel.width.toNat maxWidth.toNat) 2 / 2 * 2 := by
  rw [(streamResolution_toNat panel maxWidth).1, cappedWidth]
  omega

/-! ## The bounds -/

theorem streamResolution_even :
    (streamResolution panel maxWidth).1.toNat % 2 = 0 ∧
      (streamResolution panel maxWidth).2.toNat % 2 = 0 := by
  obtain ⟨hwidth, hheight⟩ := streamResolution_toNat panel maxWidth
  omega

theorem streamResolution_least :
    2 ≤ (streamResolution panel maxWidth).1.toNat ∧
      2 ≤ (streamResolution panel maxWidth).2.toNat := by
  obtain ⟨hwidth, hheight⟩ := streamResolution_toNat panel maxWidth
  have htwo : 2 ≤ cappedWidth panel maxWidth := Nat.le_max_right ..
  omega

theorem streamResolution_landscape :
    (streamResolution panel maxWidth).2.toNat ≤ (streamResolution panel maxWidth).1.toNat := by
  obtain ⟨hwidth, hheight⟩ := streamResolution_toNat panel maxWidth
  have htwo : 2 ≤ cappedWidth panel maxWidth := Nat.le_max_right ..
  have hle := scaledHeight_le panel maxWidth
  omega

/-- A panel of at least two lines is not upscaled. -/
theorem streamResolution_height (h : 2 ≤ panel.height.toNat) :
    (streamResolution panel maxWidth).2.toNat ≤ panel.height.toNat := by
  have hlandscape : panel.height.toNat ≤ panel.width.toNat :=
    UInt32.le_iff_toNat_le.1 panel.landscape
  have hcapped : cappedWidth panel maxWidth ≤ panel.width.toNat := by
    unfold cappedWidth
    omega
  have hscaled : scaledHeight panel maxWidth ≤ panel.height.toNat := by
    calc scaledHeight panel maxWidth
        ≤ panel.width.toNat * panel.height.toNat / panel.width.toNat :=
          Nat.div_le_div_right (Nat.mul_le_mul_right _ hcapped)
      _ = panel.height.toNat := Nat.mul_div_cancel_left _ panel.width_pos
  have hheight := (streamResolution_toNat panel maxWidth).2
  omega

/-- What the division and the two roundings to even numbers leave of the aspect ratio. -/
theorem streamResolution_aspect (h : 2 ≤ scaledHeight panel maxWidth) :
    (streamResolution panel maxWidth).2.toNat * panel.width.toNat ≤
        (streamResolution panel maxWidth).1.toNat * panel.height.toNat + panel.height.toNat ∧
      (streamResolution panel maxWidth).1.toNat * panel.height.toNat <
        (streamResolution panel maxWidth).2.toNat * panel.width.toNat + 2 * panel.width.toNat := by
  obtain ⟨hwidth, hheight⟩ := streamResolution_toNat panel maxWidth
  rw [Nat.max_eq_left h] at hheight
  have hbelow : scaledHeight panel maxWidth * panel.width.toNat ≤
      cappedWidth panel maxWidth * panel.height.toNat := Nat.div_mul_le_self ..
  have habove : cappedWidth panel maxWidth * panel.height.toNat <
      (scaledHeight panel maxWidth + 1) * panel.width.toNat := by
    rw [Nat.mul_comm (_ + 1)]
    exact Nat.lt_mul_div_succ _ panel.width_pos
  constructor
  · calc (streamResolution panel maxWidth).2.toNat * panel.width.toNat
        ≤ scaledHeight panel maxWidth * panel.width.toNat := Nat.mul_le_mul_right _ (by omega)
      _ ≤ cappedWidth panel maxWidth * panel.height.toNat := hbelow
      _ ≤ ((streamResolution panel maxWidth).1.toNat + 1) * panel.height.toNat :=
          Nat.mul_le_mul_right _ (by omega)
      _ = (streamResolution panel maxWidth).1.toNat * panel.height.toNat + panel.height.toNat :=
          Nat.succ_mul ..
  · calc (streamResolution panel maxWidth).1.toNat * panel.height.toNat
        ≤ cappedWidth panel maxWidth * panel.height.toNat := Nat.mul_le_mul_right _ (by omega)
      _ < (scaledHeight panel maxWidth + 1) * panel.width.toNat := habove
      _ ≤ ((streamResolution panel maxWidth).2.toNat + 2) * panel.width.toNat :=
          Nat.mul_le_mul_right _ (by omega)
      _ = (streamResolution panel maxWidth).2.toNat * panel.width.toNat + 2 * panel.width.toNat :=
          Nat.add_mul ..

theorem streamResolution_mono {maxWidth maxWidth' : UInt32} (h : maxWidth ≤ maxWidth') :
    (streamResolution panel maxWidth).1.toNat ≤ (streamResolution panel maxWidth').1.toNat ∧
      (streamResolution panel maxWidth).2.toNat ≤ (streamResolution panel maxWidth').2.toNat := by
  have hmax : maxWidth.toNat ≤ maxWidth'.toNat := UInt32.le_iff_toNat_le.1 h
  have hcapped : cappedWidth panel maxWidth ≤ cappedWidth panel maxWidth' := by
    unfold cappedWidth
    omega
  have hscaled : scaledHeight panel maxWidth ≤ scaledHeight panel maxWidth' :=
    Nat.div_le_div_right (Nat.mul_le_mul_right _ hcapped)
  obtain ⟨hwidth, hheight⟩ := streamResolution_toNat panel maxWidth
  obtain ⟨hwidth', hheight'⟩ := streamResolution_toNat panel maxWidth'
  omega

/-- The size of a stream, as a panel of its own. -/
def streamedPanel : Panel where
  width := (streamResolution panel maxWidth).1
  height := (streamResolution panel maxWidth).2
  landscape := UInt32.le_iff_toNat_le.2 (streamResolution_landscape panel maxWidth)
  nonzero := by
    intro hzero
    have hleast := (streamResolution_least panel maxWidth).2
    rw [hzero] at hleast
    exact absurd hleast (by decide)

/-- A panel of that size is streamed as it is. -/
theorem streamResolution_streamed :
    streamResolution (streamedPanel panel maxWidth) maxWidth =
      streamResolution panel maxWidth := by
  obtain ⟨hleast, hleast'⟩ := streamResolution_least panel maxWidth
  obtain ⟨heven, heven'⟩ := streamResolution_even panel maxWidth
  obtain ⟨hwidth, hheight⟩ := streamResolution_toNat (streamedPanel panel maxWidth) maxWidth
  have hcapped : cappedWidth (streamedPanel panel maxWidth) maxWidth =
      (streamResolution panel maxWidth).1.toNat := by
    have hold : (streamResolution panel maxWidth).1.toNat ≤ max maxWidth.toNat 2 := by
      rw [(streamResolution_toNat panel maxWidth).1, cappedWidth]
      omega
    simp only [cappedWidth, streamedPanel]
    omega
  have hscaled : scaledHeight (streamedPanel panel maxWidth) maxWidth =
      (streamResolution panel maxWidth).2.toNat := by
    rw [scaledHeight, hcapped]
    exact Nat.mul_div_cancel_left _ (by omega)
  rw [hcapped] at hwidth
  rw [hscaled] at hheight
  refine Prod.ext (UInt32.toNat_inj.1 ?_) (UInt32.toNat_inj.1 ?_)
  · omega
  · omega

/-- What a streaming resolution `w` by `h` is, for a panel and a width asked for. -/
structure Scaled (w h : UInt32) : Prop where
  even : w.toNat % 2 = 0 ∧ h.toNat % 2 = 0
  least : 2 ≤ w.toNat ∧ 2 ≤ h.toNat
  width : w.toNat ≤ max 2 (min panel.width.toNat maxWidth.toNat)
  height : 2 ≤ panel.height.toNat → h.toNat ≤ panel.height.toNat
  /-- no intermediate value overflows -/
  checked : streamResolutionChecked panel maxWidth = some (w.toNat, h.toNat)
  aspect : 2 ≤ scaledHeight panel maxWidth →
    -(panel.height.toNat : Int) ≤ w.toNat * panel.height.toNat - h.toNat * panel.width.toNat ∧
      (w.toNat * panel.height.toNat - h.toNat * panel.width.toNat : Int) < 2 * panel.width.toNat
  monotone : ∀ maxWidth' ≥ maxWidth, w ≤ (streamResolution panel maxWidth').1 ∧
    h ≤ (streamResolution panel maxWidth').2
  idempotent : ∃ streamed : Panel, streamed.width = w ∧ streamed.height = h ∧
    streamResolution streamed maxWidth = (w, h)

/-- **The streaming resolution** of every panel. -/
theorem streamResolution_scaled :
    Scaled panel maxWidth (streamResolution panel maxWidth).1
      (streamResolution panel maxWidth).2 := by
  constructor
  · exact streamResolution_even panel maxWidth
  · exact streamResolution_least panel maxWidth
  · rw [streamResolution_width]
    omega
  · exact streamResolution_height panel maxWidth
  · exact streamResolutionChecked_eq panel maxWidth
  · intro hscaled
    obtain ⟨hbelow, habove⟩ := streamResolution_aspect panel maxWidth hscaled
    zify at hbelow habove
    omega
  · intro maxWidth' hmax
    obtain ⟨hwidth, hheight⟩ := streamResolution_mono panel hmax
    exact ⟨UInt32.le_iff_toNat_le.2 hwidth, UInt32.le_iff_toNat_le.2 hheight⟩
  · exact ⟨streamedPanel panel maxWidth, rfl, rfl, streamResolution_streamed panel maxWidth⟩

end

end PadPlay.Transport
