import PadPlay.Capture.Timing
import PadPlay.Transport.Resolution

/-!
# The mode the EDID advertises

A reader of the EDID looks for detailed timings in its four blocks of 18 bytes; one whose clock
field is zero is no timing. `buildEdid` makes one timing at most (`detailedTimings_edidBody`), and
it is the mode the output was asked for as long as neither the rounding of the width nor the width
of the clock field gets in the way (`advertised_mode_iff`).
-/

namespace PadPlay.Capture.Edid

open PadPlay.Lib PadPlay.Transport

/-! ## Reading the timings back -/

/-- The detailed timings of an EDID, by its layout. -/
def detailedTimings (edid : List UInt8) : List DetailedTiming :=
  ([54, 72, 90, 108].map fun offset => decodeDescriptor (edid.drop offset)).filter fun timing =>
    timing.clock10khz ≠ 0

def DetailedTiming.activeArea (t : DetailedTiming) : Nat × Nat := (t.hactive, t.vactive)

/-- The other three blocks, behind them the checksum. -/
def otherBlocks (checksum : UInt8) : List UInt8 :=
  [0x00, 0x00, 0x00, 0xFC, 0x00] ++ monitorName ++ [0x0A] ++ List.replicate 5 0x20 ++
    dummyDescriptor ++ dummyDescriptor ++ [0, checksum]

theorem edidBody_drop (descriptor : List UInt8) (checksum : UInt8) :
    (edidBody descriptor ++ [checksum]).drop 54 = descriptor ++ otherBlocks checksum := by
  have hfront : ∀ {front back : List UInt8}, front.length = 54 →
      (front ++ descriptor ++ back).drop 54 = descriptor ++ back := by
    intro front back hfront
    rw [List.append_assoc, List.drop_left' hfront]
  unfold edidBody
  simp only [List.append_assoc _ _ [checksum]]
  simp only [List.append_assoc (_ ++ descriptor)]
  exact hfront rfl

theorem decodeDescriptor_append {descriptor : List UInt8} (rest : List UInt8)
    (h : descriptor.length = 18) :
    decodeDescriptor (descriptor ++ rest) = decodeDescriptor descriptor := by
  have hbyte : ∀ i < 18, (descriptor ++ rest).getD i 0 = descriptor.getD i 0 := by
    intro i hi
    exact List.getD_append _ _ _ _ (h ▸ hi)
  unfold decodeDescriptor
  dsimp only
  rw [hbyte 0 (by decide), hbyte 1 (by decide), hbyte 2 (by decide), hbyte 3 (by decide),
    hbyte 4 (by decide), hbyte 5 (by decide), hbyte 6 (by decide), hbyte 7 (by decide),
    hbyte 8 (by decide), hbyte 9 (by decide), hbyte 10 (by decide), hbyte 11 (by decide)]

/-- **One timing at most**: the other blocks have no clock. -/
theorem detailedTimings_edidBody {descriptor : List UInt8} (checksum : UInt8)
    (h : descriptor.length = 18) :
    detailedTimings (edidBody descriptor ++ [checksum]) =
      if (decodeDescriptor descriptor).clock10khz = 0 then []
      else [decodeDescriptor descriptor] := by
  have hfirst : decodeDescriptor ((edidBody descriptor ++ [checksum]).drop 54) =
      decodeDescriptor descriptor := by
    rw [edidBody_drop, decodeDescriptor_append _ h]
  have hother : ∀ k ∈ [0, 18, 36],
      (decodeDescriptor ((edidBody descriptor ++ [checksum]).drop (54 + (18 + k)))).clock10khz =
        0 := by
    intro k hk
    rw [← List.drop_drop, edidBody_drop, ← List.drop_drop, List.drop_left' h]
    simp only [List.mem_cons, List.not_mem_nil, or_false] at hk
    rcases hk with rfl | rfl | rfl <;> rfl
  have h₇₂ := hother 0 (by decide)
  have h₉₀ := hother 18 (by decide)
  have h₁₀₈ := hother 36 (by decide)
  simp only [Nat.reduceAdd] at h₇₂ h₉₀ h₁₀₈
  rw [detailedTimings, List.map_cons, hfirst]
  by_cases hclock : (decodeDescriptor descriptor).clock10khz = 0 <;> simp [hclock, h₇₂, h₉₀, h₁₀₈]

/-- **The timings of an EDID**: the one it is made of, as far as the fields hold it, unless its
clock field is zero. -/
theorem detailedTimings_buildEdid {width height refreshHz : Nat} {edid : List UInt8}
    (h : buildEdid width height refreshHz = some edid) :
    ∃ t clock, CvtTiming.reducedBlanking width height refreshHz = some t ∧
      clock = t.pixelClockKhz / 10 % 65536 ∧
      (detailedTimings edid).map DetailedTiming.activeArea =
        if clock = 0 then [] else [(t.hactive % 4096, t.vactive % 4096)] := by
  obtain ⟨t, htiming, h⟩ := Option.bind_eq_some_iff.1 h
  obtain ⟨descriptor, hdescriptor, h⟩ := Option.bind_eq_some_iff.1 h
  cases h
  refine ⟨t, _, htiming, rfl, ?_⟩
  rw [detailedTimings_edidBody _ (detailedTimingDescriptor_length hdescriptor),
    decodeDescriptor_eq hdescriptor]
  dsimp only
  split <;> rfl

/-! ## The mode that is asked for -/

/-- The panel's width, capped, is at least 8 and at most one pixel above a multiple of 8, and the
pixel clock in units of 10 kHz is no multiple of 65536: it is the line of the mode and 160 pixels of
blanking to the line period. -/
structure Advertisable (panel : Panel) (maxWidth refreshHz : UInt32) : Prop where
  wide : 8 ≤ min panel.width.toNat maxWidth.toNat
  whole : min panel.width.toNat maxWidth.toNat % 8 ≤ 1
  clocked : ((streamResolution panel maxWidth).1.toNat + 160) * 1000000 /
    linePeriod (streamResolution panel maxWidth).2.toNat refreshHz.toNat / 10 % 65536 ≠ 0

/-- **The output advertises the mode it is asked for**, and no other, exactly when the width is not
rounded further and the clock has no zero field. -/
theorem advertised_mode_iff (panel : Panel) (maxWidth refreshHz : UInt32) (edid : List UInt8)
    (hwidth : (streamResolution panel maxWidth).1.toNat ≤ 4095)
    (hheight : (streamResolution panel maxWidth).2.toNat ≤ 4095)
    (hedid : buildEdid (streamResolution panel maxWidth).1.toNat
      (streamResolution panel maxWidth).2.toNat refreshHz.toNat = some edid) :
    (detailedTimings edid).map DetailedTiming.activeArea =
        [((streamResolution panel maxWidth).1.toNat, (streamResolution panel maxWidth).2.toNat)] ↔
      Advertisable panel maxWidth refreshHz := by
  obtain ⟨t, clock, htiming, hclock, harea⟩ := detailedTimings_buildEdid hedid
  obtain ⟨vsync, hperiod, hrb⟩ := reducedBlanking_some htiming
  have hround := streamResolution_width panel maxWidth
  have hperiod_eq : linePeriod (streamResolution panel maxWidth).2.toNat refreshHz.toNat =
      hperiod := hrb.hperiod_eq.symm
  -- whenever the width is kept, the clock is the one of the condition
  have hkept : (streamResolution panel maxWidth).1.toNat % 8 = 0 →
      clock = ((streamResolution panel maxWidth).1.toNat + 160) * 1000000 / hperiod / 10 %
        65536 := by
    intro hwhole
    have hsmall : ((streamResolution panel maxWidth).1.toNat + 160) * 1000000 / hperiod < 2 ^ 32 :=
      Nat.lt_of_le_of_lt (Nat.div_le_self ..) (by omega)
    rw [hclock, hrb.pixelClock, hrb.htotal, hrb.hactive, hwhole, Nat.sub_zero, Nat.mul_assoc,
      toU32Or, if_pos hsmall]
  rw [harea, hrb.hactive, hrb.vactive]
  constructor
  · intro hmode
    split at hmode
    · cases hmode
    · next hne =>
      simp only [List.cons.injEq, Prod.mk.injEq, and_true] at hmode
      have hwhole : (streamResolution panel maxWidth).1.toNat % 8 = 0 := by omega
      refine ⟨by omega, by omega, ?_⟩
      rw [hperiod_eq, ← hkept hwhole]
      exact hne
  · intro h
    have hwide := h.wide
    have hnarrow := h.whole
    have hclocked := h.clocked
    have hwhole : (streamResolution panel maxWidth).1.toNat % 8 = 0 := by omega
    rw [hperiod_eq, ← hkept hwhole] at hclocked
    rw [if_neg hclocked, hwhole, Nat.sub_zero, Nat.mod_eq_of_lt (by omega),
      Nat.mod_eq_of_lt (by omega)]

/-- The tablet panel the defaults are made for: 1920x1200, and the EDID says so. -/
theorem advertised_mode_default :
    let panel : Panel := ⟨2880, 1800, by decide, by decide⟩
    ∃ edid, buildEdid 1920 1200 60 = some edid ∧
      ((detailedTimings edid).map DetailedTiming.activeArea =
        [((streamResolution panel 1920).1.toNat, (streamResolution panel 1920).2.toNat)] ↔
        Advertisable panel 1920 60) :=
  ⟨(buildEdid 1920 1200 60).getD [], by decide +kernel,
    advertised_mode_iff _ 1920 60 _ (by decide) (by decide) (by decide +kernel)⟩

theorem advertised_mode_narrower :
    let panel : Panel := ⟨1366, 768, by decide, by decide⟩
    ∃ edid, buildEdid (streamResolution panel 1920).1.toNat
        (streamResolution panel 1920).2.toNat 60 = some edid ∧
      (detailedTimings edid).map DetailedTiming.activeArea ≠
        [((streamResolution panel 1920).1.toNat, (streamResolution panel 1920).2.toNat)] :=
  ⟨(buildEdid 1366 768 60).getD [], by decide +kernel, by decide +kernel⟩

/-- A clock of 655,361 kHz: the field is zero, and the EDID has no timing at all. -/
example : (buildEdid 2584 1880 120).map detailedTimings = some [] := by decide +kernel

end PadPlay.Capture.Edid
