import PadPlay.Capture.Session

/-!
# Picking a DMA-BUF format (`capture::session`)

What `pick_dmabuf_format` returns when the consumer restricts modifiers: XR24 if the compositor's
first XR24 entry shares a modifier with the consumer, else AR24 likewise, with the modifier the
consumer likes best. A format may have several entries; `picksBest_iff` says when the first ones
are enough for the choice to be the best of all.
-/

namespace PadPlay.CaptureSession

section
variable {formats : List (UInt32 × List UInt64)} {allowed : List UInt64} {wanted f : UInt32}
  {modifiers : List UInt64} {m : UInt64}

/-- The first modifier of the consumer's that the first entry for the format offers. -/
def Preferred (formats : List (UInt32 × List UInt64)) (allowed : List UInt64) (wanted : UInt32)
    (m : UInt64) : Prop :=
  ∃ offered, offeredFor formats wanted = some offered ∧
    (allowed.find? fun m => m ∈ offered) = some m

/-- The first entry for the format offers a modifier of the consumer's. -/
def Shares (formats : List (UInt32 × List UInt64)) (allowed : List UInt64) (wanted : UInt32) :
    Prop :=
  ∃ offered, offeredFor formats wanted = some offered ∧ ∃ m ∈ allowed, m ∈ offered

theorem Preferred.mem (h : Preferred formats allowed wanted m) : m ∈ allowed := by
  obtain ⟨_, _, hfind⟩ := h
  exact List.mem_of_find?_eq_some hfind

theorem Preferred.shares (h : Preferred formats allowed wanted m) :
    Shares formats allowed wanted := by
  obtain ⟨offered, hoffered, hfind⟩ := h
  have hmem : m ∈ offered := by simpa using List.find?_some hfind
  exact ⟨offered, hoffered, m, List.mem_of_find?_eq_some hfind, hmem⟩

theorem Shares.preferred (h : Shares formats allowed wanted) :
    ∃ m, Preferred formats allowed wanted m := by
  obtain ⟨offered, hoffered, m, hallowed, hmem⟩ := h
  have hsome : (allowed.find? fun m => m ∈ offered).isSome :=
    List.find?_isSome.2 ⟨m, hallowed, decide_eq_true hmem⟩
  obtain ⟨m', hm'⟩ := Option.isSome_iff_exists.1 hsome
  exact ⟨m', offered, hoffered, hm'⟩

theorem Preferred.unique {m' : UInt64} (h : Preferred formats allowed wanted m)
    (h' : Preferred formats allowed wanted m') : m = m' := by
  obtain ⟨offered, hoffered, hfind⟩ := h
  obtain ⟨offered', hoffered', hfind'⟩ := h'
  cases hoffered.symm.trans hoffered'
  exact Option.some.inj (hfind.symm.trans hfind')

theorem pickWanted_some (hne : allowed ≠ []) :
    pickWanted formats allowed wanted = some (f, modifiers) ↔
      f = wanted ∧ ∃ m, modifiers = [m] ∧ Preferred formats allowed wanted m := by
  unfold pickWanted Preferred
  cases offeredFor formats wanted with
  | none => simp
  | some offered =>
    simp only [if_neg hne, Option.map_eq_some_iff, Prod.mk.injEq, Option.some.injEq,
      exists_eq_left']
    constructor
    · intro ⟨m, hfind, hf, hm⟩
      exact ⟨hf.symm, m, hm.symm, hfind⟩
    · intro ⟨hf, m, hm, hfind⟩
      exact ⟨m, hfind, hf.symm, hm.symm⟩

theorem pickWanted_none (hne : allowed ≠ []) :
    pickWanted formats allowed wanted = none ↔ ¬ Shares formats allowed wanted := by
  constructor
  · intro hnone hshares
    obtain ⟨m, hm⟩ := hshares.preferred
    have hsome := (pickWanted_some hne).2 ⟨rfl, m, rfl, hm⟩
    rw [hnone] at hsome
    cases hsome
  · intro hno
    cases hpick : pickWanted formats allowed wanted with
    | none => rfl
    | some picked =>
      obtain ⟨-, m, -, hm⟩ := (pickWanted_some hne).1 hpick
      exact absurd hm.shares hno

/-- **`pick_dmabuf_format`** for a consumer that restricts modifiers. -/
theorem pickDmabufFormat_ok (hne : allowed ≠ []) :
    pickDmabufFormat formats allowed = .ok (f, modifiers) ↔ ∃ m, modifiers = [m] ∧
      (f = XR24 ∧ Preferred formats allowed XR24 m ∨
        f = AR24 ∧ ¬ Shares formats allowed XR24 ∧ Preferred formats allowed AR24 m) := by
  unfold pickDmabufFormat
  cases hxr : pickWanted formats allowed XR24 with
  | some picked =>
    obtain ⟨f', modifiers'⟩ := picked
    obtain ⟨rfl, m', rfl, hm'⟩ := (pickWanted_some hne).1 hxr
    simp only [Option.some_or, Except.ok.injEq, Prod.mk.injEq]
    constructor
    · rintro ⟨rfl, rfl⟩
      exact ⟨m', rfl, .inl ⟨rfl, hm'⟩⟩
    · rintro ⟨m, rfl, ⟨rfl, hm⟩ | ⟨-, hno, -⟩⟩
      · exact ⟨rfl, congrArg ([·]) (hm'.unique hm)⟩
      · exact absurd hm'.shares hno
  | none =>
    have hno := (pickWanted_none hne).1 hxr
    simp only [Option.none_or]
    cases har : pickWanted formats allowed AR24 with
    | some picked =>
      obtain ⟨f', modifiers'⟩ := picked
      obtain ⟨rfl, m', rfl, hm'⟩ := (pickWanted_some hne).1 har
      simp only [Except.ok.injEq, Prod.mk.injEq]
      constructor
      · rintro ⟨rfl, rfl⟩
        exact ⟨m', rfl, .inr ⟨rfl, hno, hm'⟩⟩
      · rintro ⟨m, rfl, ⟨-, hm⟩ | ⟨rfl, -, hm⟩⟩
        · exact absurd hm.shares hno
        · exact ⟨rfl, congrArg ([·]) (hm'.unique hm)⟩
    | none =>
      simp only [if_neg hne, reduceCtorEq, false_iff]
      rintro ⟨m, -, ⟨-, hm⟩ | ⟨-, -, hm⟩⟩
      · exact hno hm.shares
      · exact (pickWanted_none hne).1 har hm.shares

end

/-! ## With several entries for one format

The code looks at the first entry for a format only. -/

/-- An entry for the format offers the modifier. -/
def Offers (formats : List (UInt32 × List UInt64)) (wanted : UInt32) (m : UInt64) : Prop :=
  ∃ entry ∈ formats, entry.1 = wanted ∧ m ∈ entry.2

instance (formats : List (UInt32 × List UInt64)) (wanted : UInt32) (m : UInt64) :
    Decidable (Offers formats wanted m) :=
  inferInstanceAs (Decidable (∃ entry ∈ formats, _))

/-- The format shares a modifier with the consumer. -/
def SharesAny (formats : List (UInt32 × List UInt64)) (allowed : List UInt64) (wanted : UInt32) :
    Prop :=
  ∃ m ∈ allowed, Offers formats wanted m

/-- The first modifier of the consumer's that some entry for the format offers. -/
def Best (formats : List (UInt32 × List UInt64)) (allowed : List UInt64) (wanted : UInt32)
    (m : UInt64) : Prop :=
  (allowed.find? fun m => Offers formats wanted m) = some m

/-- XR24 if it shares a modifier, else AR24 if it does, and the consumer's favourite among all
that are offered for it. -/
structure PicksBest (formats : List (UInt32 × List UInt64)) (allowed : List UInt64) : Prop where
  ok : ∀ f m, pickDmabufFormat formats allowed = .ok (f, [m]) ↔
    f = XR24 ∧ Best formats allowed XR24 m ∨
      f = AR24 ∧ ¬SharesAny formats allowed XR24 ∧ Best formats allowed AR24 m
  error : (∃ e, pickDmabufFormat formats allowed = .error e) ↔
    ¬SharesAny formats allowed XR24 ∧ ¬SharesAny formats allowed AR24

/-- The favourite among all that are offered for the format is offered by its first entry. -/
def FirstOffers (formats : List (UInt32 × List UInt64)) (allowed : List UInt64) (wanted : UInt32) :
    Prop :=
  ∀ m, Best formats allowed wanted m →
    ∃ offered, offeredFor formats wanted = some offered ∧ m ∈ offered

section
variable {formats : List (UInt32 × List UInt64)} {allowed : List UInt64} {wanted : UInt32}
  {m : UInt64}

theorem Offers.of_first {offered : List UInt64} (hfirst : offeredFor formats wanted = some offered)
    (hmem : m ∈ offered) : Offers formats wanted m := by
  obtain ⟨entry, hfind, rfl⟩ := Option.map_eq_some_iff.1 hfirst
  have hwanted : entry.1 = wanted := by simpa using List.find?_some hfind
  exact ⟨entry, List.mem_of_find?_eq_some hfind, hwanted, hmem⟩

theorem Best.sharesAny (h : Best formats allowed wanted m) : SharesAny formats allowed wanted := by
  have hoffers : Offers formats wanted m := by simpa using List.find?_some h
  exact ⟨m, List.mem_of_find?_eq_some h, hoffers⟩

theorem SharesAny.best (h : SharesAny formats allowed wanted) :
    ∃ m, Best formats allowed wanted m := by
  obtain ⟨m, hallowed, hoffers⟩ := h
  exact Option.isSome_iff_exists.1
    (List.find?_isSome.2 ⟨m, hallowed, decide_eq_true hoffers⟩)

theorem Shares.sharesAny (h : Shares formats allowed wanted) :
    SharesAny formats allowed wanted := by
  obtain ⟨offered, hfirst, m, hallowed, hmem⟩ := h
  exact ⟨m, hallowed, .of_first hfirst hmem⟩

/-- What is found first stays the first among fewer candidates. -/
private theorem find?_of_imp {α : Type} {p q : α → Bool} {l : List α} {a : α}
    (h : l.find? p = some a) (himp : ∀ x, q x = true → p x = true) (ha : q a = true) :
    l.find? q = some a := by
  induction l with
  | nil => cases h
  | cons x l ih =>
    rw [List.find?_cons] at h ⊢
    cases hp : p x with
    | true =>
      rw [hp] at h
      cases h
      rw [ha]
    | false =>
      rw [hp] at h
      have hq : q x = false := Bool.eq_false_iff.2 fun hq => by rw [himp x hq] at hp; cases hp
      rw [hq]
      exact ih h

theorem Best.preferred (h : Best formats allowed wanted m) {offered : List UInt64}
    (hfirst : offeredFor formats wanted = some offered) (hmem : m ∈ offered) :
    Preferred formats allowed wanted m := by
  refine ⟨offered, hfirst, find?_of_imp h ?_ (decide_eq_true hmem)⟩
  intro x hx
  exact decide_eq_true (Offers.of_first hfirst (of_decide_eq_true hx))

namespace FirstOffers

variable (h : FirstOffers formats allowed wanted)
include h

theorem preferred_iff : Preferred formats allowed wanted m ↔ Best formats allowed wanted m := by
  constructor
  · intro hpreferred
    obtain ⟨m', hbest⟩ := hpreferred.shares.sharesAny.best
    obtain ⟨offered, hfirst, hmem⟩ := h m' hbest
    cases hpreferred.unique (hbest.preferred hfirst hmem)
    exact hbest
  · intro hbest
    obtain ⟨offered, hfirst, hmem⟩ := h m hbest
    exact hbest.preferred hfirst hmem

theorem shares_iff : Shares formats allowed wanted ↔ SharesAny formats allowed wanted := by
  refine ⟨Shares.sharesAny, ?_⟩
  intro hany
  obtain ⟨m, hbest⟩ := hany.best
  exact (h.preferred_iff.2 hbest).shares

end FirstOffers

theorem pickDmabufFormat_error (hne : allowed ≠ []) :
    (∃ e, pickDmabufFormat formats allowed = .error e) ↔
      ¬Shares formats allowed XR24 ∧ ¬Shares formats allowed AR24 := by
  constructor
  · rintro ⟨e, he⟩
    have hno : ∀ f m, pickDmabufFormat formats allowed ≠ .ok (f, [m]) := by
      intro f m hok
      rw [he] at hok
      cases hok
    have hxr : ¬Shares formats allowed XR24 := by
      intro hshares
      obtain ⟨m, hm⟩ := hshares.preferred
      exact hno XR24 m ((pickDmabufFormat_ok hne).2 ⟨m, rfl, .inl ⟨rfl, hm⟩⟩)
    refine ⟨hxr, ?_⟩
    intro hshares
    obtain ⟨m, hm⟩ := hshares.preferred
    exact hno AR24 m ((pickDmabufFormat_ok hne).2 ⟨m, rfl, .inr ⟨rfl, hxr, hm⟩⟩)
  · rintro ⟨hxr, har⟩
    cases hpick : pickDmabufFormat formats allowed with
    | error e => exact ⟨e, rfl⟩
    | ok picked =>
      obtain ⟨m, -, ⟨-, hm⟩ | ⟨-, -, hm⟩⟩ := (pickDmabufFormat_ok hne).1 hpick
      · exact absurd hm.shares hxr
      · exact absurd hm.shares har

end

/-- **`pick_dmabuf_format` among all entries**: it picks the favourite exactly when the first entry
for the format to be picked offers it. -/
theorem picksBest_iff (formats : List (UInt32 × List UInt64)) (allowed : List UInt64)
    (hne : allowed ≠ []) :
    PicksBest formats allowed ↔ FirstOffers formats allowed XR24 ∧
      (¬SharesAny formats allowed XR24 → FirstOffers formats allowed AR24) := by
  constructor
  · intro h
    constructor
    · intro m hbest
      obtain ⟨m', hm, ⟨-, hpreferred⟩ | ⟨hformat, -⟩⟩ :=
        (pickDmabufFormat_ok hne).1 ((h.ok XR24 m).2 (.inl ⟨rfl, hbest⟩))
      · cases hm
        obtain ⟨offered, hfirst, hfind⟩ := hpreferred
        exact ⟨offered, hfirst, by simpa using List.find?_some hfind⟩
      · exact absurd hformat (by decide)
    · intro hno m hbest
      obtain ⟨m', hm, ⟨hformat, -⟩ | ⟨-, -, hpreferred⟩⟩ :=
        (pickDmabufFormat_ok hne).1 ((h.ok AR24 m).2 (.inr ⟨rfl, hno, hbest⟩))
      · exact absurd hformat (by decide)
      · cases hm
        obtain ⟨offered, hfirst, hfind⟩ := hpreferred
        exact ⟨offered, hfirst, by simpa using List.find?_some hfind⟩
  · rintro ⟨hxr, har⟩
    constructor
    · intro f m
      rw [pickDmabufFormat_ok hne]
      constructor
      · rintro ⟨m', hm, hpicked⟩
        cases hm
        rcases hpicked with ⟨hf, hpreferred⟩ | ⟨hf, hno, hpreferred⟩
        · exact .inl ⟨hf, hxr.preferred_iff.1 hpreferred⟩
        · rw [hxr.shares_iff] at hno
          exact .inr ⟨hf, hno, (har hno).preferred_iff.1 hpreferred⟩
      · intro hbest
        refine ⟨m, rfl, ?_⟩
        rcases hbest with ⟨hf, hbest⟩ | ⟨hf, hno, hbest⟩
        · exact .inl ⟨hf, hxr.preferred_iff.2 hbest⟩
        · refine .inr ⟨hf, ?_, (har hno).preferred_iff.2 hbest⟩
          rw [hxr.shares_iff]
          exact hno
    · rw [pickDmabufFormat_error hne, hxr.shares_iff]
      exact and_congr_right fun hno => not_congr (har hno).shares_iff

/-- A compositor with one entry for each of its formats. -/
theorem picksBest_single :
    PicksBest [(AR24, [0, 5]), (XR24, [0, 7])] [7, 0] ↔
      FirstOffers [(AR24, [0, 5]), (XR24, [0, 7])] [7, 0] XR24 ∧
        (¬SharesAny [(AR24, [0, 5]), (XR24, [0, 7])] [7, 0] XR24 →
          FirstOffers [(AR24, [0, 5]), (XR24, [0, 7])] [7, 0] AR24) :=
  picksBest_iff _ _ (by decide)

/-- A modifier that only the second entry for XR24 offers is not found. -/
theorem second_entry_missed : ¬PicksBest [(XR24, [1]), (XR24, [2])] [2] := by
  intro h
  have hno := (h.error.1 ⟨_, rfl⟩).1
  exact hno ⟨2, by decide, by decide⟩

end PadPlay.CaptureSession
