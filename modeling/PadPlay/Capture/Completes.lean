import PadPlay.Capture.Timing

/-!
# Which modes have a timing

`CvtTiming::reduced_blanking` multiplies and divides what it is given without a test. It completes
exactly for the modes of `Timeable` (`reducedBlanking_isSome`): the divisors are not zero, the
second has room for the blanking, and the products and sums fit.
-/

namespace PadPlay.Capture.Edid

open PadPlay.Lib

/-! ## The aspect ratio -/

theorem isRatio_true {hdisplay vdisplay k num den : Nat} :
    isRatio hdisplay vdisplay k num den = some true ↔
      vdisplay % k = 0 ∧ vdisplay * num < 2 ^ 32 ∧ vdisplay * num / den = hdisplay := by
  unfold isRatio
  split
  · next hk => simp [hk, Option.bind_eq_some_iff, and_assoc]
  · next hk => simp [hk]

theorem isRatio_false {hdisplay vdisplay k num den : Nat} :
    isRatio hdisplay vdisplay k num den = some false ↔
      (vdisplay % k = 0 → vdisplay * num < 2 ^ 32 ∧ vdisplay * num / den ≠ hdisplay) := by
  unfold isRatio
  split
  · next hk => simp [hk, Option.bind_eq_some_iff, and_assoc]
  · next hk => simp [hk]

theorem choose_isSome {α : Type} {test : Option Bool} {a : α} {rest : Option α} :
    (do if ← test then return a else rest).isSome = true ↔
      test = some true ∨ test = some false ∧ rest.isSome = true := by
  rcases test with _ | _ | _ <;> simp

/-- The mode is 4:3, or none of the products that the other ratios are tested with overflows. -/
def AspectFits (hdisplay vdisplay : Nat) : Prop :=
  vdisplay % 3 = 0 ∧ vdisplay * 4 / 3 = hdisplay ∨
    (vdisplay % 9 = 0 ∨ vdisplay % 10 = 0 → vdisplay * 16 < 2 ^ 32) ∧
      (vdisplay % 4 = 0 → vdisplay * 5 < 2 ^ 32)

instance (hdisplay vdisplay : Nat) : Decidable (AspectFits hdisplay vdisplay) :=
  inferInstanceAs (Decidable (_ ∨ _))

theorem vsyncWidth_isSome {hdisplay vdisplay : Nat} (h : vdisplay < 2 ^ 30) :
    (vsyncWidth hdisplay vdisplay).isSome = true ↔ AspectFits hdisplay vdisplay := by
  unfold vsyncWidth AspectFits
  simp only [choose_isSome, isRatio_true, isRatio_false]
  simp only [Option.pure_def, Option.isSome_some, and_true]
  have hfour : vdisplay * 4 < 2 ^ 32 := by omega
  by_cases hsmall : vdisplay * 16 < 2 ^ 32
  · -- no product of the tests overflows
    have hfive : vdisplay * 5 < 2 ^ 32 := by omega
    have hfifteen : vdisplay * 15 < 2 ^ 32 := by omega
    simp only [hfour, hfive, hfifteen, hsmall, true_and, implies_true, or_true, iff_true]
    simp only [ne_eq, ← not_and, or_and_left, Classical.em, true_and, or_true]
  · -- no test with sixteen is passed
    simp only [hfour, hsmall, true_and, false_and, and_false, false_or, imp_false]
    by_cases hthree : vdisplay % 3 = 0 ∧ vdisplay * 4 / 3 = hdisplay
    · exact iff_of_true (.inl hthree) (.inl hthree)
    · have hnot : vdisplay % 3 = 0 → vdisplay * 4 / 3 ≠ hdisplay := not_and.1 hthree
      rw [or_iff_right hthree, or_iff_right hthree, and_iff_right hnot]
      omega

/-! ## The timing -/

structure Timeable (width height refreshHz : Nat) : Prop where
  refresh : refreshHz ≠ 0
  lines : height ≠ 0
  /-- the second holds the blanking of each frame and a nanosecond for each line -/
  room : refreshHz * (height + 460000) ≤ 1000000000
  wide : width < 2 ^ 32 - 160
  aspect : AspectFits width height

section
variable {width height refreshHz : Nat}

theorem Timeable.height_le (h : Timeable width height refreshHz) : height ≤ 999540000 := by
  have hone : 1 * (height + 460000) ≤ refreshHz * (height + 460000) :=
    Nat.mul_le_mul_right _ (Nat.pos_of_ne_zero h.refresh)
  have hroom := h.room
  omega

theorem reducedBlanking_wide {t : CvtTiming}
    (h : CvtTiming.reducedBlanking width height refreshHz = some t) : width < 2 ^ 32 - 160 := by
  unfold CvtTiming.reducedBlanking at h
  obtain ⟨hactive, hhactive, h⟩ := Option.bind_eq_some_iff.1 h
  obtain ⟨vsync, -, h⟩ := Option.bind_eq_some_iff.1 h
  obtain ⟨blank, -, h⟩ := Option.bind_eq_some_iff.1 h
  obtain ⟨tmp1, -, h⟩ := Option.bind_eq_some_iff.1 h
  obtain ⟨lines, -, h⟩ := Option.bind_eq_some_iff.1 h
  obtain ⟨hperiod, -, h⟩ := Option.bind_eq_some_iff.1 h
  obtain ⟨quotient, -, h⟩ := Option.bind_eq_some_iff.1 h
  obtain ⟨vbilines, -, h⟩ := Option.bind_eq_some_iff.1 h
  obtain ⟨vtotal, -, h⟩ := Option.bind_eq_some_iff.1 h
  obtain ⟨htotal, hhtotal, -⟩ := Option.bind_eq_some_iff.1 h
  have hle := (Checked.sub_eq_some.1 hhactive).2
  have hlt := (Checked.add_eq_some.1 hhtotal).1
  rw [H_BLANK] at hlt
  omega

theorem Timeable.of_some {t : CvtTiming}
    (h : CvtTiming.reducedBlanking width height refreshHz = some t) :
    Timeable width height refreshHz := by
  obtain ⟨vsync, hperiod, hrb⟩ := reducedBlanking_some h
  obtain ⟨hlines, hrefresh⟩ := Nat.mul_ne_zero_iff.1 hrb.nonzero
  have hroom : refreshHz * (height + 460000) ≤ 1000000000 := by
    have hone : height * refreshHz * 1 ≤ height * refreshHz * hperiod :=
      Nat.mul_le_mul_left _ (Nat.pos_of_ne_zero hrb.hperiod_ne)
    have hframe := hrb.frame.1
    rw [Nat.mul_add, Nat.mul_comm refreshHz height, Nat.mul_comm refreshHz]
    omega
  have hheight : height < 2 ^ 30 := by
    have hone : 1 * (height + 460000) ≤ refreshHz * (height + 460000) :=
      Nat.mul_le_mul_right _ (Nat.pos_of_ne_zero hrefresh)
    omega
  have haspect : (vsyncWidth width height).isSome = true := by
    rw [hrb.vsync_eq]
    rfl
  exact ⟨hrefresh, hlines, hroom, reducedBlanking_wide h, (vsyncWidth_isSome hheight).1 haspect⟩

private theorem bind_isSome {α β : Type} {x : Option α} {f : α → Option β} {a : α}
    (hx : x = some a) (hf : (f a).isSome = true) : (x >>= f).isSome = true := by
  rw [hx]
  exact hf

/-- Every operation of the timing's, in order. -/
theorem Timeable.completes (h : Timeable width height refreshHz) :
    (CvtTiming.reducedBlanking width height refreshHz).isSome = true := by
  have hheight := h.height_le
  have hwide := h.wide
  have hpos : 0 < height * refreshHz :=
    Nat.mul_pos (Nat.pos_of_ne_zero h.lines) (Nat.pos_of_ne_zero h.refresh)
  have hroom : height * refreshHz + 460000 * refreshHz ≤ 1000000000 := by
    have hroom := h.room
    rw [Nat.mul_add, Nat.mul_comm refreshHz height, Nat.mul_comm refreshHz] at hroom
    exact hroom
  obtain ⟨vsync, hvsync⟩ := Option.isSome_iff_exists.1 ((vsyncWidth_isSome (by omega)).2 h.aspect)
  have hvsync_le := (vsyncWidth_bounds hvsync).2
  have hperiod_ne : (1000000000 - 460000 * refreshHz) / (height * refreshHz) ≠ 0 :=
    Nat.ne_of_gt (Nat.div_pos (by omega) hpos)
  have hquotient : 460000 / ((1000000000 - 460000 * refreshHz) / (height * refreshHz)) ≤ 460000 :=
    Nat.div_le_self ..
  have hsmall : toU32Or 0 (460000 / ((1000000000 - 460000 * refreshHz) / (height * refreshHz))) =
      460000 / ((1000000000 - 460000 * refreshHz) / (height * refreshHz)) :=
    if_pos (by omega)
  unfold CvtTiming.reducedBlanking
  refine bind_isSome (Checked.sub_eq_some.2 ⟨Nat.mod_le .., rfl⟩) ?_
  refine bind_isSome hvsync ?_
  refine bind_isSome (Checked.mul_eq_some.2 ⟨?_, rfl⟩) ?_
  · rw [MIN_VBLANK_US, HV_FACTOR]
    omega
  refine bind_isSome (Checked.sub_eq_some.2 ⟨?_, rfl⟩) ?_
  · rw [MIN_VBLANK_US, HV_FACTOR]
    omega
  refine bind_isSome (Checked.mul_eq_some.2 ⟨by omega, rfl⟩) ?_
  refine bind_isSome (Checked.div_eq_some.2 ⟨Nat.ne_of_gt hpos, rfl⟩) ?_
  refine bind_isSome (Checked.div_eq_some.2 ⟨hperiod_ne, rfl⟩) ?_
  simp only [MIN_VBLANK_US, HV_FACTOR, V_FRONT_PORCH, MIN_V_BACK_PORCH, H_BLANK, H_SYNC,
    Nat.reduceMul, Nat.reduceDiv, hsmall]
  generalize (1000000000 - 460000 * refreshHz) / (height * refreshHz) = hperiod at *
  generalize 460000 / hperiod = quotient at *
  refine bind_isSome (Checked.add_eq_some.2 ⟨by omega, rfl⟩) ?_
  refine bind_isSome (Checked.add_eq_some.2 ⟨by omega, rfl⟩) ?_
  refine bind_isSome (Checked.add_eq_some.2 ⟨by omega, rfl⟩) ?_
  refine bind_isSome (Checked.add_eq_some.2 ⟨by omega, rfl⟩) ?_
  refine bind_isSome (Checked.sub_eq_some.2 ⟨by omega, rfl⟩) ?_
  refine bind_isSome (Checked.add_eq_some.2 ⟨by omega, rfl⟩) ?_
  refine bind_isSome (Checked.add_eq_some.2 ⟨by omega, rfl⟩) ?_
  refine bind_isSome (Checked.mul_eq_some.2 ⟨by omega, rfl⟩) ?_
  refine bind_isSome (Checked.mul_eq_some.2 ⟨by omega, rfl⟩) ?_
  exact bind_isSome (Checked.div_eq_some.2 ⟨hperiod_ne, rfl⟩) rfl

/-- **The modes that have a timing.** -/
theorem reducedBlanking_isSome :
    (CvtTiming.reducedBlanking width height refreshHz).isSome = true ↔
      Timeable width height refreshHz := by
  constructor
  · intro h
    obtain ⟨t, ht⟩ := Option.isSome_iff_exists.1 h
    exact .of_some ht
  · exact Timeable.completes

theorem buildEdid_isSome :
    (buildEdid width height refreshHz).isSome = true ↔ Timeable width height refreshHz := by
  rw [← reducedBlanking_isSome]
  constructor
  · intro h
    obtain ⟨edid, hedid⟩ := Option.isSome_iff_exists.1 h
    obtain ⟨t, ht, -⟩ := Option.bind_eq_some_iff.1 hedid
    rw [ht]
    rfl
  · intro h
    obtain ⟨t, ht⟩ := Option.isSome_iff_exists.1 h
    obtain ⟨edid, hedid, -⟩ := buildEdid_checked ht
    rw [hedid]
    rfl

end

end PadPlay.Capture.Edid
