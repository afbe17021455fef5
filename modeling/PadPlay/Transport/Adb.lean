import Mathlib.Data.Nat.Bitwise

/-!
# Panel size and streaming resolution (`transport::adb`)
-/

namespace PadPlay.Transport

/-- A device's panel, in landscape orientation. -/
structure Panel where
  width : UInt32
  height : UInt32
  landscape : height ≤ width
  nonzero : height ≠ 0

/-- What `display_size` makes of the two lines of `wm size`, each if it is there and parses. The
override is what apps actually get, so it is preferred. -/
def displaySize (overrideSize physicalSize : Option (UInt32 × UInt32)) : Option Panel :=
  match overrideSize <|> physicalSize with
  | none => none
  | some (w, h) =>
    if hzero : w = 0 ∨ h = 0 then none
    else if hle : h ≤ w then some ⟨w, h, hle, fun h => hzero (.inr h)⟩
    else some ⟨h, w, Std.le_of_lt (Std.not_le.1 hle), fun h => hzero (.inl h)⟩

def align2 (value : UInt32) : UInt32 := value &&& ~~~1

/-- Pick a streaming resolution matching the device's aspect ratio. -/
def streamResolution (panel : Panel) (maxWidth : UInt32) : UInt32 × UInt32 :=
  let width := max (min panel.width maxWidth) 2
  let height := (width.toUInt64 * panel.height.toUInt64 / panel.width.toUInt64).toUInt32
  (align2 width, align2 (max height 2))

theorem align2_toNat (value : UInt32) : (align2 value).toNat = value.toNat - value.toNat % 2 := by
  have hmask : (~~~1 : UInt32).toNat = 2 * (2 ^ 31 - 1) := by decide
  have hlt := value.toNat_lt
  rw [align2, UInt32.toNat_and, hmask]
  have hhalf : (value.toNat &&& 2 * (2 ^ 31 - 1)) / 2 = value.toNat / 2 := by
    rw [Nat.and_div_two, Nat.mul_div_cancel_left _ (by decide), Nat.and_two_pow_sub_one_eq_mod,
      Nat.mod_eq_of_lt (by omega)]
  have heven : (value.toNat &&& 2 * (2 ^ 31 - 1)) % 2 = 0 := by
    rw [← Nat.and_one_is_mod, Nat.and_assoc]
    simp
  omega

end PadPlay.Transport
