import PadPlay.Transport.Sender

/-!
# `write_all_vectored` and the library's

The hand-written loop and the library's do the same with every answer of a writer but one: an
interrupted call is handed on as an error here, and tried again there (`asLibrary_iff`).
-/

namespace PadPlay.Transport

open PadPlay.Lib

/-- The outcome is the library's: all slices, in order and once, exactly when it succeeds, and
otherwise a prefix of them. -/
structure AsLibrary (writer : ByteSink) (slices : List (List UInt8)) : Prop where
  outcome : writeAllVectored writer slices = writer.writeAllVectored slices
  whole : (writeAllVectored writer slices).1 = .ok () ↔
    (writeAllVectored writer slices).2.wire = writer.wire ++ slices.flatten
  part : (writeAllVectored writer slices).2.wire <+: writer.wire ++ slices.flatten

/-! ## One call -/

section
variable {s s' : ByteSink} {slices : List (List UInt8)}

theorem writeVectored_taken {n : Nat} (h : s.writeVectored slices = (.ok n, s')) (hn : n ≠ 0) :
    (s.answers 0).interrupts = 0 ∧ ∃ k, (s.answers 0).outcome = .accepted k ∧
      n = min (k + 1) slices.flatten.length ∧ s'.answers = fun i => s.answers (i + 1) := by
  unfold ByteSink.writeVectored at h
  split at h
  · cases h
  · next hzero =>
    refine ⟨not_not.1 hzero, ?_⟩
    split at h
    · next k hk =>
      cases h
      exact ⟨k, hk, List.length_take, rfl⟩
    · cases h
      exact absurd rfl hn
    · cases h

theorem writeVectored_none (h : s.writeVectored slices = (.ok 0, s')) (hne : slices.flatten ≠ []) :
    (s.answers 0).interrupts = 0 ∧ (s.answers 0).outcome = .zero := by
  unfold ByteSink.writeVectored at h
  split at h
  · cases h
  · next hzero =>
    refine ⟨not_not.1 hzero, ?_⟩
    split at h
    · next k hk =>
      have hpos := List.length_pos_iff.2 hne
      simp only [Prod.mk.injEq, Except.ok.injEq, List.length_take] at h
      omega
    · assumption
    · cases h

theorem writeVectored_error_iff {e : WriteError} (h : s.writeVectored slices = (.error e, s')) :
    (e = .interrupted ↔ (s.answers 0).interrupts ≠ 0) ∧
      ((s.answers 0).interrupts = 0 → (s.answers 0).outcome = .failed) := by
  unfold ByteSink.writeVectored at h
  split at h
  · next hinterrupts =>
    cases h
    exact ⟨iff_of_true rfl hinterrupts, fun hzero => absurd hzero hinterrupts⟩
  · next hzero =>
    split at h
    · cases h
    · cases h
    · next hfailed =>
      cases h
      exact ⟨iff_of_false (by decide) hzero, fun _ => hfailed⟩

end

/-! ## The two loops -/

/-- **The two loops agree** exactly when no call they come to is interrupted. -/
theorem writeAllVectored_eq_iff (writer : ByteSink) (slices : List (List UInt8))
    (hne : slices ≠ [] → slices.flatten ≠ []) :
    writeAllVectored writer slices = writer.writeSlices slices ↔
      ByteSink.Undisturbed slices.flatten.length writer.answers := by
  fun_induction writeAllVectored writer slices with
  | case1 writer =>
    rw [ByteSink.writeSlices, ByteSink.Undisturbed]
    exact iff_of_true rfl trivial
  | case2 writer slices hs e writer' hwrite =>
    have hlen : slices.flatten.length ≠ 0 := Nat.ne_of_gt (List.length_pos_iff.2 (hne hs))
    obtain ⟨hinterrupted, hfailed⟩ := writeVectored_error_iff hwrite
    rw [ByteSink.Undisturbed, dif_neg hlen]
    by_cases he : e = .interrupted
    · cases he
      refine iff_of_false ?_ ?_
      · intro heq
        have hnot := writer.writeSlices_not_interrupted slices
        rw [← heq] at hnot
        exact hnot rfl
      · rintro ⟨hzero, -⟩
        exact hinterrupted.1 rfl hzero
    · have hzero : (writer.answers 0).interrupts = 0 := by
        by_contra hinterrupts
        exact he (hinterrupted.2 hinterrupts)
      rw [ByteSink.writeSlices_error hs hwrite he, hfailed hzero]
      exact iff_of_true rfl ⟨hzero, trivial⟩
  | case3 writer slices hs writer' hwrite =>
    have hlen : slices.flatten.length ≠ 0 := Nat.ne_of_gt (List.length_pos_iff.2 (hne hs))
    obtain ⟨hzero, hnone⟩ := writeVectored_none hwrite (hne hs)
    rw [ByteSink.writeSlices_ok hs hwrite, if_pos rfl, ByteSink.Undisturbed, dif_neg hlen, hnone]
    exact iff_of_true rfl ⟨hzero, trivial⟩
  | case4 writer slices hs written writer' hwrite hwritten ih =>
    have hlen : slices.flatten.length ≠ 0 := Nat.ne_of_gt (List.length_pos_iff.2 (hne hs))
    obtain ⟨hzero, k, hk, hmin, hanswers⟩ := writeVectored_taken hwrite hwritten
    have hleft : slices.flatten.length - (k + 1) = slices.flatten.length - written := by omega
    rw [ByteSink.writeSlices_ok hs hwrite, if_neg hwritten,
      ih (advanceSlices_ne_nil slices written), advanceSlices_flatten, List.length_drop, hanswers,
      ← hleft]
    rw [ByteSink.Undisturbed.eq_def slices.flatten.length, dif_neg hlen, hk]
    exact (and_iff_right hzero).symm

/-- **`write_all_vectored` does what the library's does** exactly when no call is interrupted
before both slices are written, or the writer takes none of them or fails. -/
theorem asLibrary_iff (writer : ByteSink) (first payload : List UInt8) (hne : first ≠ []) :
    AsLibrary writer [first, payload] ↔
      ByteSink.Undisturbed (first ++ payload).length writer.answers := by
  have hflatten : [first, payload].flatten = first ++ payload := by simp
  have hfirst : first.length ≠ 0 := fun h => hne (List.length_eq_zero_iff.1 h)
  have hadvance : advanceSlices [first, payload] 0 = [first, payload] :=
    if_neg (by omega)
  have hdata : [first, payload] ≠ [] → [first, payload].flatten ≠ [] := by
    intro _ hnil
    rw [hflatten] at hnil
    exact hne (List.append_eq_nil_iff.1 hnil).1
  have hiff := writeAllVectored_eq_iff writer [first, payload] hdata
  rw [hflatten] at hiff
  rw [← hiff]
  constructor
  · intro h
    have houtcome := h.outcome
    rw [ByteSink.writeAllVectored, hadvance] at houtcome
    exact houtcome
  · intro heq
    obtain ⟨k, hk, hwire, hok⟩ := writeAllVectored_spec writer [first, payload] hdata
    refine ⟨?_, ?_, ?_⟩
    · rw [ByteSink.writeAllVectored, hadvance]
      exact heq
    · rw [hok, hwire]
      constructor
      · intro hall
        rw [hall, List.take_length]
      · intro hall
        have hlength := congrArg List.length (List.append_cancel_left hall)
        rw [List.length_take] at hlength
        omega
    · rw [hwire]
      exact (List.prefix_append_right_inj _).2 (List.take_prefix ..)

/-- A header and a payload that go out in two calls. -/
theorem asLibrary_two_calls :
    let answers : Nat → WriteAnswer := fun _ => ⟨0, .accepted 2⟩
    AsLibrary ⟨[], answers⟩ [[1, 2], [3, 4]] ↔ ByteSink.Undisturbed 4 answers :=
  asLibrary_iff _ [1, 2] [3, 4] (by decide)

/-- One interrupted call, which the library would try again, ends the write. -/
theorem interrupted_given_up :
    let writer : ByteSink := ⟨[], fun _ => ⟨1, .accepted 2⟩⟩
    ¬AsLibrary writer [[1], [2]] := by
  intro writer h
  have hgone : (writeAllVectored writer [[1], [2]]).1 = .error .interrupted := by
    rw [writeAllVectored]
    rfl
  rw [h.outcome] at hgone
  exact ByteSink.writeSlices_not_interrupted _ _ hgone

end PadPlay.Transport
