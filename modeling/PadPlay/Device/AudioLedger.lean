import PadPlay.Device.AudioCalls

/-!
# What the audio side holds (`AudioStream.kt`)

`Kept` is the invariant of the four fields: whatever a set-up made is settled, or in its field, or
about to be stored there, or was lost to an exception. It holds as long as no other call is in
progress while one is in `configure` (`Alone`): two teardowns may interleave, statement by
statement, but a teardown that runs into a `configure` can forget what it never released.
-/

namespace PadPlay.Device.AudioThreads

open PadPlay.Lib PadPlay.Device.Protocol

/-! ## The invariant -/

namespace Player

structure Kept (s : Player) : Prop where
  shape : ∀ t, WellFormed (s.calls t)
  made : ∀ x k, s.begun x k → s.settled x k ∨ s.held x = some k ∨
    (∃ t, .store x k ∈ s.calls t) ∨ s.abandoned x k
  latest : ∀ t, ∀ stmt ∈ s.calls t, ∀ k, stmt.setUp? = some k → k + 1 = s.setUps
  old : ∀ x k, s.begun x k → k < s.setUps
  fresh : ∀ t x k, .create x k ∈ s.calls t → s.begun x k = false
  cleared : ∀ t, Tears (s.calls t) → ∀ x, .forget x ∈ s.calls t ∨ s.held x = none
  discards : ∀ t x rest k, s.calls t = .forget x :: rest → s.held x = some k → s.settled x k
  /-- who sets up has torn down what was there -/
  others : ∀ t, SetsUp (s.calls t) → ∀ x j, s.begun x j → j + 1 ≠ s.setUps →
    s.settled x j ∨ s.abandoned x j
  slots : ∀ t, SetsUp (s.calls t) → ∀ k, k + 1 = s.setUps → ∀ x,
    (.store x k ∈ s.calls t ∧ s.held x = none) ∨ s.held x = some k
  /-- the fields belong together, but for a teardown or a set-up that is not finished -/
  whole : ∀ x y k, s.held x = some k → s.held y = some k ∨ (∃ t, .forget x ∈ s.calls t) ∨
    ∃ t, .store y k ∈ s.calls t
  lost : ∀ x k, s.abandoned x k → x = .codec ∨ x = .track
  /-- what is settled is about to be forgotten -/
  live : ∀ x k, s.held x = some k → s.settled x k → ∃ t, .forget x ∈ s.calls t
  unstored : ∀ t x k, .store x k ∈ s.calls t → s.settled x k = false
  past : ∀ x k, s.held x = some k ∨ s.settled x k → k < s.setUps

/-- What the rest of a call has to satisfy for a caller to go on with it. -/
structure GoesOn (s : Player) (t : Nat) (p : List Stmt) : Prop where
  shape : WellFormed p
  made : ∀ x k, .store x k ∈ s.calls t → s.begun x k →
    .store x k ∈ p ∨ s.settled x k ∨ s.held x = some k ∨ s.abandoned x k
  latest : ∀ stmt ∈ p, ∀ k, stmt.setUp? = some k → k + 1 = s.setUps
  fresh : ∀ x k, .create x k ∈ p → s.begun x k = false
  cleared : Tears p → ∀ x, .forget x ∈ p ∨ s.held x = none
  discards : ∀ x rest k, p = .forget x :: rest → s.held x = some k → s.settled x k
  others : SetsUp p → ∀ x j, s.begun x j → j + 1 ≠ s.setUps → s.settled x j ∨ s.abandoned x j
  slots : SetsUp p → ∀ k, k + 1 = s.setUps → ∀ x,
    (.store x k ∈ p ∧ s.held x = none) ∨ s.held x = some k
  forgets : ∀ x k, s.held x = some k → .forget x ∈ s.calls t → .forget x ∈ p
  stores : ∀ x y k, s.held x = some k → .store y k ∈ s.calls t →
    .store y k ∈ p ∨ s.held y = some k ∨ .forget x ∈ p
  unstored : ∀ x k, .store x k ∈ p → s.settled x k = false

theorem exists_goOn {s : Player} {t : Nat} {p : List Stmt} {stmt : Stmt}
    (h : ∃ t', stmt ∈ s.calls t') (hp : stmt ∈ s.calls t → stmt ∈ p) :
    ∃ t', stmt ∈ (s.goOn t p).calls t' := by
  obtain ⟨t', ht'⟩ := h
  by_cases heq : t' = t
  · subst heq
    exact ⟨t', by simpa using hp ht'⟩
  · exact ⟨t', by simpa [Function.update_of_ne heq] using ht'⟩

theorem forall_goOn {s : Player} {t : Nat} {p : List Stmt} {P : List Stmt → Prop} (hp : P p)
    (h : ∀ t', P (s.calls t')) (t' : Nat) : P ((s.goOn t p).calls t') := by
  by_cases heq : t' = t
  · subst heq
    simpa using hp
  · simpa [Function.update_of_ne heq] using h t'

theorem Kept.goOn {s : Player} (h : s.Kept) {t : Nat} {p : List Stmt} (hp : s.GoesOn t p) :
    (s.goOn t p).Kept where
  shape := forall_goOn hp.shape h.shape
  made := by
    intro x k hbegun
    rcases h.made x k hbegun with hs | hh | ht | ha
    · exact .inl hs
    · exact .inr (.inl hh)
    · by_cases hstore : .store x k ∈ p ∨ .store x k ∉ s.calls t
      · refine .inr (.inr (.inl (exists_goOn ht fun hmem => ?_)))
        exact hstore.resolve_right (not_not_intro hmem)
      · rw [not_or, not_not] at hstore
        rcases hp.made x k hstore.2 hbegun with hin | hs | hh | ha
        · exact absurd hin hstore.1
        · exact .inl hs
        · exact .inr (.inl hh)
        · exact .inr (.inr (.inr ha))
    · exact .inr (.inr (.inr ha))
  latest := forall_goOn (P := fun p => ∀ stmt ∈ p, ∀ k, stmt.setUp? = some k → k + 1 = s.setUps)
    hp.latest h.latest
  old := h.old
  fresh := forall_goOn (P := fun p => ∀ x k, .create x k ∈ p → s.begun x k = false) hp.fresh
    h.fresh
  cleared := forall_goOn (P := fun p => Tears p → ∀ x, .forget x ∈ p ∨ s.held x = none) hp.cleared
    h.cleared
  discards := forall_goOn
    (P := fun p => ∀ x rest k, p = .forget x :: rest → s.held x = some k → s.settled x k)
    hp.discards h.discards
  others := forall_goOn (P := fun p => SetsUp p → ∀ x j, s.begun x j → j + 1 ≠ s.setUps →
    s.settled x j ∨ s.abandoned x j) hp.others h.others
  slots := forall_goOn (P := fun p => SetsUp p → ∀ k, k + 1 = s.setUps → ∀ x,
    (.store x k ∈ p ∧ s.held x = none) ∨ s.held x = some k) hp.slots h.slots
  whole := by
    intro x y k hx
    rcases h.whole x y k hx with hy | hf | hst
    · exact .inl hy
    · exact .inr (.inl (exists_goOn hf (hp.forgets x k hx)))
    · by_cases hstore : .store y k ∈ p ∨ .store y k ∉ s.calls t
      · refine .inr (.inr (exists_goOn hst fun hmem => ?_))
        exact hstore.resolve_right (not_not_intro hmem)
      · rw [not_or, not_not] at hstore
        rcases (hp.stores x y k hx hstore.2).resolve_left hstore.1 with hy | hf
        · exact .inl hy
        · exact .inr (.inl ⟨t, by simpa using hf⟩)
  lost := h.lost
  live := fun x k hx hs => exists_goOn (h.live x k hx hs) (hp.forgets x k hx)
  unstored := forall_goOn (P := fun p => ∀ x k, .store x k ∈ p → s.settled x k = false)
    hp.unstored h.unstored
  past := h.past

theorem Kept.congr {s s' : Player} (h : s.Kept) (hs : SameBooks s s') : s'.Kept where
  shape := by rw [hs.calls]; exact h.shape
  made := by rw [hs.begun, hs.settled, hs.held, hs.calls, hs.abandoned]; exact h.made
  latest := by rw [hs.calls, hs.setUps]; exact h.latest
  old := by rw [hs.begun, hs.setUps]; exact h.old
  fresh := by rw [hs.calls, hs.begun]; exact h.fresh
  cleared := by rw [hs.calls, hs.held]; exact h.cleared
  discards := by rw [hs.calls, hs.held, hs.settled]; exact h.discards
  others := by rw [hs.calls, hs.begun, hs.setUps, hs.settled, hs.abandoned]; exact h.others
  slots := by rw [hs.calls, hs.setUps, hs.held]; exact h.slots
  whole := by rw [hs.held, hs.calls]; exact h.whole
  lost := by rw [hs.abandoned]; exact h.lost
  live := by rw [hs.held, hs.settled, hs.calls]; exact h.live
  unstored := by rw [hs.calls, hs.settled]; exact h.unstored
  past := by rw [hs.held, hs.settled, hs.setUps]; exact h.past

/-! ## Operations -/

/-- A caller goes on behind a statement that has taken its effect on the fields. -/
theorem Kept.goesOn_rest {s : Player} (h : s.Kept) {t : Nat} {stmt : Stmt} {rest : List Stmt}
    (hcalls : s.calls t = stmt :: rest) (hforget : ∀ x, stmt = .forget x → s.held x = none)
    (hstore : ∀ x k, stmt = .store x k → s.held x = some k)
    (hsettle : ∀ x k, stmt = .settle x → s.held x = some k → s.settled x k) :
    s.GoesOn t rest := by
  have hshape := h.shape t
  rw [hcalls] at hshape
  obtain ⟨hheads, hrest⟩ := hshape
  have hsub : ∀ {stmt'}, stmt' ∈ rest → stmt' ∈ s.calls t := by
    intro stmt' hmem
    rw [hcalls]
    exact List.mem_cons_of_mem _ hmem
  refine ⟨hrest, ?_, ?_, ?_, ?_, ?_, ?_, ?_, ?_, ?_, fun x k hmem => h.unstored t x k (hsub hmem)⟩
  · intro x k hmem _
    rw [hcalls] at hmem
    rcases List.mem_cons.1 hmem with heq | hin
    · exact .inr (.inr (.inl (hstore x k heq.symm)))
    · exact .inl hin
  · intro stmt' hmem
    exact h.latest t stmt' (hsub hmem)
  · intro x k hmem
    exact h.fresh t x k (hsub hmem)
  · intro htears x
    rcases h.cleared t (hcalls ▸ htears.tail) x with hf | hnone
    · rw [hcalls] at hf
      rcases List.mem_cons.1 hf with heq | hin
      · exact .inr (hforget x heq.symm)
      · exact .inl hin
    · exact .inr hnone
  · intro x q k hq hheld
    exact hsettle x k (hheads.settles x q hq) hheld
  · intro hsets
    exact h.others t (hcalls ▸ hsets.tail)
  · intro hsets k hk x
    rcases h.slots t (hcalls ▸ hsets.tail) k hk x with ⟨hmem, hnone⟩ | hheld
    · rw [hcalls] at hmem
      rcases List.mem_cons.1 hmem with heq | hin
      · exact .inr (hstore x k heq.symm)
      · exact .inl ⟨hin, hnone⟩
    · exact .inr hheld
  · intro x k hheld hmem
    rw [hcalls] at hmem
    rcases List.mem_cons.1 hmem with heq | hin
    · rw [hforget x heq.symm] at hheld
      cases hheld
    · exact hin
  · intro x y k _ hmem
    rw [hcalls] at hmem
    rcases List.mem_cons.1 hmem with heq | hin
    · exact .inr (.inl (hstore y k heq.symm))
    · exact .inl hin

/-- A statement that does nothing to the fields. -/
theorem Kept.skip {s : Player} (h : s.Kept) {t : Nat} {stmt : Stmt} {rest : List Stmt}
    (hcalls : s.calls t = stmt :: rest) (hforget : ∀ x, stmt ≠ .forget x)
    (hstore : ∀ x k, stmt ≠ .store x k) (hsettle : ∀ x, stmt ≠ .settle x) :
    (s.goOn t rest).Kept :=
  h.goOn (h.goesOn_rest hcalls (fun x heq => absurd heq (hforget x))
    (fun x k heq => absurd heq (hstore x k)) (fun x _ heq => absurd heq (hsettle x)))

@[simp] theorem mark_self (f : Field → Nat → Bool) (x : Field) (k : Nat) : mark f x k x k := by
  simp [mark]

theorem mark_of {f : Field → Nat → Bool} {x y : Field} {k j : Nat} (h : f y j) :
    mark f x k y j := by simp [mark, h]

theorem mark_iff {f : Field → Nat → Bool} {x y : Field} {k j : Nat} :
    mark f x k y j ↔ f y j ∨ (y = x ∧ j = k) := by simp [mark]

/-- While a caller is in a call, but not in `configure`, nobody is in `configure`. -/
theorem Alone.none_setsUp {s : Player} (ha : s.Alone) {t : Nat} (hne : s.calls t ≠ [])
    (ht : ¬SetsUp (s.calls t)) (t' : Nat) : ¬SetsUp (s.calls t') := by
  intro hsets
  rw [← ha t' t hsets hne] at hsets
  exact ht hsets

theorem Kept.heads {s : Player} (h : s.Kept) {t : Nat} {stmt : Stmt} {rest : List Stmt}
    (hcalls : s.calls t = stmt :: rest) : Heads stmt rest := by
  have hshape := h.shape t
  rw [hcalls] at hshape
  exact hshape.1

/-- A teardown settles what a field holds, which nobody is about to store. -/
theorem Kept.settle {s : Player} (h : s.Kept) (ha : s.Alone) {t : Nat} {x : Field}
    {rest : List Stmt} (hcalls : s.calls t = .settle x :: rest) :
    ((s.settle x).goOn t rest).Kept := by
  obtain ⟨q, hrest⟩ := (h.heads hcalls).discards x rfl
  have hforget : .forget x ∈ rest := by simp [hrest]
  have hidle : ∀ t', ¬SetsUp (s.calls t') := by
    apply ha.none_setsUp (t := t) (by simp [hcalls])
    rw [hcalls, setsUp_cons, not_or]
    refine ⟨by simp [Stmt.setUp?], ?_⟩
    have hshape := h.shape t
    rw [hcalls] at hshape
    exact fun hsets => hshape.2.not_tears hsets (.inl ⟨x, hforget⟩)
  have hbooks : (s.settle x).Kept ∧ (s.settle x).calls = s.calls ∧
      ∀ k, (s.settle x).held x = some k → (s.settle x).settled x k := by
    unfold Player.settle
    cases hheld : s.held x with
    | none => exact ⟨h, rfl, by simp [hheld]⟩
    | some k =>
      refine ⟨?_, rfl, ?_⟩
      · exact { h with
          made := fun y j hb => (h.made y j hb).imp_left mark_of
          discards := fun t' y q j hc hh => mark_of (h.discards t' y q j hc hh)
          others := fun t' hs => absurd hs (hidle t')
          live := by
            intro y j hy hs
            rcases mark_iff.1 hs with hs | ⟨rfl, -⟩
            · exact h.live y j hy hs
            · exact ⟨t, by rw [hcalls]; exact List.mem_cons_of_mem _ hforget⟩
          unstored := fun t' y j hmem => absurd ⟨_, hmem, by simp [Stmt.setUp?]⟩ (hidle t')
          past := by
            rintro y j (hy | hs)
            · exact h.past y j (.inl hy)
            · rcases mark_iff.1 hs with hs | ⟨rfl, rfl⟩
              · exact h.past y j (.inr hs)
              · exact h.past y j (.inl hheld) }
      · intro j hj
        obtain rfl : k = j := by simpa [hheld] using hj
        exact mark_self ..
  obtain ⟨hkept, hcalls', hsettled⟩ := hbooks
  apply hkept.goOn
  rw [← hcalls'] at hcalls
  apply hkept.goesOn_rest hcalls
  · simp
  · simp
  · intro y k heq hheld
    cases heq
    exact hsettled k hheld

theorem held_update {s : Player} {x y : Field} {v : Option Nat} {k : Nat}
    (h : Function.update s.held x v y = some k) : (y = x ∧ v = some k) ∨ s.held y = some k := by
  by_cases heq : y = x
  · subst heq
    exact .inl ⟨rfl, by simpa using h⟩
  · exact .inr (by simpa [Function.update_of_ne heq] using h)

theorem Kept.forget {s : Player} (h : s.Kept) (ha : s.Alone) {t : Nat} {x : Field}
    {rest : List Stmt} (hcalls : s.calls t = .forget x :: rest) :
    (({ s with held := Function.update s.held x none } : Player).goOn t rest).Kept := by
  have hidle : ∀ t', ¬SetsUp (s.calls t') := by
    apply ha.none_setsUp (t := t) (by simp [hcalls])
    rw [hcalls, setsUp_cons, not_or]
    exact ⟨by simp [Stmt.setUp?], (h.heads hcalls).tears (.inl ⟨x, rfl⟩)⟩
  have hheld : ∀ y k, Function.update s.held x none y = some k → y ≠ x ∧ s.held y = some k := by
    intro y k hy
    by_cases heq : y = x
    · simp [heq] at hy
    · exact ⟨heq, by simpa [Function.update_of_ne heq] using hy⟩
  have hnone : ∀ y, s.held y = none → Function.update s.held x none y = none := by
    intro y hy
    by_cases heq : y = x
    · simp [heq]
    · rw [Function.update_of_ne heq, hy]
  have hkept : ({ s with held := Function.update s.held x none } : Player).Kept :=
    { h with
      made := by
        intro y k hbegun
        rcases h.made y k hbegun with hs | hh | hrest
        · exact .inl hs
        · by_cases heq : y = x
          · subst heq
            exact .inl (h.discards t y rest k hcalls hh)
          · exact .inr (.inl (by simpa [Function.update_of_ne heq] using hh))
        · exact .inr (.inr hrest)
      cleared := fun t' ht y => (h.cleared t' ht y).imp_right (hnone y)
      discards := fun t' y q k hq hy => h.discards t' y q k hq (hheld y k hy).2
      slots := fun t' hsets => absurd hsets (hidle t')
      whole := by
        -- what is still held is about to be forgotten by the same caller
        intro y z k hy
        obtain ⟨-, hy⟩ := hheld y k hy
        have hf := h.cleared t (.inl ⟨x, by simp [hcalls]⟩) y
        rw [hy] at hf
        exact .inr (.inl ⟨t, hf.resolve_right (by simp)⟩)
      live := fun y k hy => h.live y k (hheld y k hy).2
      past := fun y k hy => h.past y k (hy.imp_left fun hy => (hheld y k hy).2) }
  apply hkept.goOn
  apply hkept.goesOn_rest hcalls
  · intro y heq
    cases heq
    simp
  · simp
  · simp

/-- While a caller is in `configure`, no teardown is on. -/
theorem Kept.none_tears {s : Player} (h : s.Kept) (ha : s.Alone) {t : Nat}
    (hsets : SetsUp (s.calls t)) (t' : Nat) : ¬Tears (s.calls t') := by
  by_cases hne : s.calls t' = []
  · simp [hne, Tears]
  · rw [ha t t' hsets hne]
    exact (h.shape t).not_tears hsets

/-- While a caller is in `configure`, the fields hold what it has stored. -/
theorem Kept.held_latest {s : Player} (h : s.Kept) {t : Nat} (hsets : SetsUp (s.calls t))
    {y : Field} {j k : Nat} (hk : k + 1 = s.setUps) (hheld : s.held y = some j) : j = k := by
  rcases h.slots t hsets k hk y with ⟨-, hnone⟩ | hsome
  · rw [hnone] at hheld
    cases hheld
  · rw [hsome] at hheld
    cases hheld
    rfl

theorem Kept.store {s : Player} (h : s.Kept) (ha : s.Alone) {t : Nat} {x : Field} {k : Nat}
    {rest : List Stmt} (hcalls : s.calls t = .store x k :: rest) :
    (({ s with held := Function.update s.held x (some k) } : Player).goOn t rest).Kept := by
  have hsets : SetsUp (s.calls t) := by
    rw [hcalls]
    exact setsUp_cons.2 (.inl (by simp [Stmt.setUp?]))
  have hk : k + 1 = s.setUps := h.latest t (.store x k) (by simp [hcalls]) k rfl
  have htears := h.none_tears ha hsets
  have hslots : ∀ y, (.store y k ∈ s.calls t ∧ Function.update s.held x (some k) y = none) ∨
      Function.update s.held x (some k) y = some k := by
    intro y
    by_cases heq : y = x
    · exact .inr (by simp [heq])
    · rw [Function.update_of_ne heq]
      exact h.slots t hsets k hk y
  have hslot : ∀ y j, Function.update s.held x (some k) y = some j → j = k := by
    intro y j hy
    rcases held_update hy with ⟨-, hj⟩ | hheld
    · cases hj
      rfl
    · exact h.held_latest hsets hk hheld
  have hkept : ({ s with held := Function.update s.held x (some k) } : Player).Kept :=
    { h with
      made := by
        intro y j hbegun
        rcases h.made y j hbegun with hs | hheld | hrest
        · exact .inl hs
        · obtain rfl := h.held_latest hsets hk hheld
          rcases hslots y with ⟨-, hnone⟩ | hsome
          · by_cases heq : y = x
            · simp [heq] at hnone
            · rw [Function.update_of_ne heq, hheld] at hnone
              cases hnone
          · exact .inr (.inl hsome)
        · exact .inr (.inr hrest)
      cleared := fun t' ht => absurd ht (htears t')
      discards := by
        intro t' y q j hq _
        apply absurd (.inl ⟨y, ?_⟩) (htears t')
        rw [show s.calls t' = _ from hq]
        exact List.mem_cons_self
      slots := by
        intro t' hsets' j hj
        obtain rfl : j = k := Nat.succ_injective (hj.trans hk.symm)
        obtain rfl : t' = t := ha t t' hsets hsets'.ne_nil
        exact hslots
      whole := by
        intro y z j hy
        obtain rfl := hslot y j hy
        rcases hslots z with ⟨hmem, -⟩ | hsome
        · exact .inr (.inr ⟨t, hmem⟩)
        · exact .inl hsome
      live := by
        intro y j hy hs
        rcases held_update hy with ⟨rfl, hj⟩ | hy
        · cases hj
          have hfresh := h.unstored t y k (by simp [hcalls])
          rw [show s.settled y k = true from hs] at hfresh
          cases hfresh
        · exact h.live y j hy hs
      past := by
        rintro y j (hy | hs)
        · obtain rfl := hslot y j hy
          exact Nat.lt_of_succ_le (Nat.le_of_eq hk)
        · exact h.past y j (.inr hs) }
  apply hkept.goOn
  apply hkept.goesOn_rest hcalls
  · simp
  · intro y j heq
    cases heq
    simp
  · simp

/-- Threads are never lost. -/
theorem Kept.thread_settled {s : Player} (h : s.Kept) {x : Field} {k : Nat}
    (hx : x = .writerThread ∨ x = .outputDrainThread) (hover : s.settled x k ∨ s.abandoned x k) :
    s.settled x k := by
  rcases hover with hs | ha
  · exact hs
  · rcases hx with rfl | rfl <;> rcases h.lost _ k ha with hc | hc <;> cases hc

/-- Something more is made, by the caller that is setting up. -/
theorem Kept.create {s : Player} (h : s.Kept) (ha : s.Alone) {t : Nat} {x : Field} {k : Nat}
    {rest : List Stmt} (hcalls : s.calls t = .create x k :: rest) :
    ((s.create x k).goOn t rest).Kept := by
  have hsets : SetsUp (s.calls t) := by
    rw [hcalls]
    exact setsUp_cons.2 (.inl (by simp [Stmt.setUp?]))
  have hk : k + 1 = s.setUps := h.latest t (.create x k) (by simp [hcalls]) k rfl
  obtain ⟨hstore, hcreate⟩ := (h.heads hcalls).stores x k rfl
  have hrest : (s.goOn t rest).Kept := h.skip hcalls (by simp) (by simp) (by simp)
  have hkept : ({ s.goOn t rest with begun := mark s.begun x k } : Player).Kept :=
    { hrest with
      made := by
        intro y j hbegun
        rcases mark_iff.1 hbegun with hold | ⟨rfl, rfl⟩
        · exact hrest.made y j hold
        · exact .inr (.inr (.inl ⟨t, by simpa using hstore⟩))
      old := by
        intro y j hbegun
        rcases mark_iff.1 hbegun with hold | ⟨-, rfl⟩
        · exact h.old y j hold
        · exact Nat.lt_of_succ_le (Nat.le_of_eq hk)
      fresh := by
        intro t' y j hmem
        have hold : s.begun y j = false := hrest.fresh t' y j hmem
        have hne : ¬(y = x ∧ j = k) := by
          rintro ⟨rfl, rfl⟩
          by_cases heq : t' = t
          · subst heq
            exact hcreate (by simpa using hmem)
          · have hmem' : .create y j ∈ s.calls t' := by
              simpa [Function.update_of_ne heq] using hmem
            exact heq (ha t t' hsets (List.ne_nil_of_mem hmem'))
        simp [mark, hold, hne]
      others := by
        intro t' hsets' y j hbegun hj
        rcases mark_iff.1 hbegun with hold | ⟨-, rfl⟩
        · exact hrest.others t' hsets' y j hold hj
        · exact absurd hk hj }
  cases x <;> exact hkept.congr ⟨rfl, rfl, rfl, rfl, rfl, rfl, rfl⟩

/-- When the fields are empty and nobody is in `configure`, all that was made is done with. -/
theorem Kept.over {s : Player} (h : s.Kept) (hnone : ∀ x, s.held x = none)
    (hidle : ∀ t, ¬SetsUp (s.calls t)) {x : Field} {k : Nat} (hbegun : s.begun x k) :
    s.settled x k ∨ s.abandoned x k := by
  rcases h.made x k hbegun with hs | hh | ⟨t, ht⟩ | hlost
  · exact .inl hs
  · rw [hnone x] at hh
    cases hh
  · exact absurd ⟨_, ht, by simp [Stmt.setUp?]⟩ (hidle t)
  · exact .inr hlost

/-- A header is accepted: the caller goes into `configure`, and what was before is done with. -/
theorem Kept.configure {s : Player} (h : s.Kept) (ha : s.Alone) {t : Nat} {header : StreamHeader}
    {rest : List Stmt} (hcalls : s.calls t = .acceptHeader header :: rest) :
    (({ s with setUps := s.setUps + 1 } : Player).goOn t
      (.phase .connecting :: AudioThreads.configure header s.setUps)).Kept := by
  have hlast := (h.heads hcalls).returns (.inr ⟨header, rfl⟩)
  rw [hlast] at hcalls
  have hidle : ∀ t', ¬SetsUp (s.calls t') := by
    apply ha.none_setsUp (t := t) (by simp [hcalls])
    simp [hcalls, SetsUp, Stmt.setUp?]
  have hnone : ∀ x, s.held x = none := by
    intro x
    exact (h.cleared t (.inr (.inr ⟨header, by simp [hcalls]⟩)) x).resolve_left (by simp [hcalls])
  have hkept : ({ s with setUps := s.setUps + 1 } : Player).Kept :=
    { h with
      latest := fun t' stmt hmem k hk =>
        absurd ⟨stmt, hmem, by simp [hk]⟩ (hidle t')
      old := fun x k hbegun => Nat.lt_succ_of_lt (h.old x k hbegun)
      others := fun t' hsets => absurd hsets (hidle t')
      slots := fun t' hsets => absurd hsets (hidle t')
      past := fun x k hx => Nat.lt_succ_of_lt (h.past x k hx) }
  apply hkept.goOn
  have hconf : ∀ stmt ∈ AudioThreads.configure header s.setUps, ∀ k, stmt.setUp? = some k →
      k = s.setUps := by
    simp [AudioThreads.configure, Stmt.setUp?]
  refine ⟨⟨?_, wellFormed_configure header s.setUps⟩, ?_, ?_, ?_, ?_, ?_, ?_, ?_, ?_, ?_, ?_⟩
  · constructor <;> simp [Stmt.setUp?, Stmt.throws, AudioThreads.configure]
  · intro x k hmem
    simp [hcalls] at hmem
  · intro stmt hmem k hk
    rcases List.mem_cons.1 hmem with rfl | hin
    · cases hk
    · exact congrArg (· + 1) (hconf stmt hin k hk)
  · intro x k hmem
    obtain rfl := hconf _ (by simpa using hmem) k rfl
    by_contra hbegun
    exact absurd (h.old x _ (by simpa using hbegun)) (Nat.lt_irrefl _)
  · intro htears
    simp [Tears, AudioThreads.configure] at htears
  · simp
  · intro _ x j hbegun _
    exact h.over hnone hidle hbegun
  · intro _ k hk x
    obtain rfl : k = s.setUps := Nat.succ_injective hk
    refine .inl ⟨?_, hnone x⟩
    cases x <;> simp [AudioThreads.configure]
  · intro x k hmem
    rw [show s.held x = none from hnone x] at hmem
    cases hmem
  · intro x y k hmem
    rw [show s.held x = none from hnone x] at hmem
    cases hmem
  · intro x k hmem
    obtain rfl := hconf _ (by simpa using hmem) k rfl
    by_contra hsettled
    exact absurd (h.past x _ (.inr (by simpa using hsettled))) (Nat.lt_irrefl _)

/-- A new call. -/
theorem Kept.call {s : Player} (h : s.Kept) {t : Nat} (hidle : s.calls t = []) (c : Call) :
    (s.goOn t c.body).Kept := by
  have hsets : ¬SetsUp c.body := by
    cases c <;> simp [SetsUp, Call.body, teardown, Stmt.setUp?]
  apply h.goOn
  refine ⟨wellFormed_body c, ?_, ?_, ?_, ?_, ?_, fun hs => absurd hs hsets,
    fun hs => absurd hs hsets, ?_, ?_,
    fun x k hmem => absurd ⟨_, hmem, by simp [Stmt.setUp?]⟩ hsets⟩
  · simp [hidle]
  · intro stmt hmem k hk
    exact absurd ⟨stmt, hmem, by simp [hk]⟩ hsets
  · intro x k hmem
    exact absurd ⟨_, hmem, by simp [Stmt.setUp?]⟩ hsets
  · intro htears x
    cases c with
    | start => simp [Tears, Call.body] at htears
    | stop | onStreamHeader | onSessionEnded =>
      cases x <;> simp [Call.body, teardown]
  · intro x rest k hrest
    cases c <;> cases hrest
  · simp [hidle]
  · simp [hidle]

/-- A call returns early, or comes to its last assignments. -/
theorem Kept.ends {s : Player} (h : s.Kept) {t : Nat} {stmt : Stmt} (hcalls : s.calls t = [stmt])
    (hforget : ∀ x, stmt ≠ .forget x) (hstore : ∀ x k, stmt ≠ .store x k) {p : List Stmt}
    (hshape : WellFormed p) (hsets : ¬SetsUp p) (htears : ¬Tears p) : (s.goOn t p).Kept := by
  apply h.goOn
  refine ⟨hshape, ?_, ?_, ?_, fun ht => absurd ht htears, ?_, fun hs => absurd hs hsets,
    fun hs => absurd hs hsets, ?_, ?_,
    fun x k hmem => absurd ⟨_, hmem, by simp [Stmt.setUp?]⟩ hsets⟩
  · intro x k hmem
    rw [hcalls, List.mem_singleton] at hmem
    exact absurd hmem.symm (hstore x k)
  · intro stmt' hmem k hk
    exact absurd ⟨stmt', hmem, by simp [hk]⟩ hsets
  · intro x k hmem
    exact absurd ⟨_, hmem, by simp [Stmt.setUp?]⟩ hsets
  · intro x q k hq
    exact absurd (.inl ⟨x, by simp [hq]⟩) htears
  · intro x k _ hmem
    rw [hcalls, List.mem_singleton] at hmem
    exact absurd hmem.symm (hforget x)
  · intro x y k _ hmem
    rw [hcalls, List.mem_singleton] at hmem
    exact absurd hmem.symm (hstore y k)

/-- An exception: what was made and not stored is lost, and the teardown is ahead. -/
theorem Kept.raise {s : Player} (h : s.Kept) {t : Nat} {stmt : Stmt} {rest : List Stmt}
    (hcalls : s.calls t = stmt :: rest) (hthrows : stmt.throws) (message : Option String) :
    (s.raise t rest message).Kept := by
  obtain ⟨lost, hdef⟩ : ∃ lost : Field → Nat → Bool, lost = fun x k =>
      s.abandoned x k || (s.begun x k && decide (.store x k ∈ rest)) := ⟨_, rfl⟩
  have hlost : ∀ x k, lost x k ↔ s.abandoned x k ∨ (s.begun x k ∧ .store x k ∈ rest) := by
    simp [hdef]
  have hkept : ({ s with abandoned := lost } : Player).Kept :=
    { h with
      made := by
        intro x k hbegun
        rcases h.made x k hbegun with hs | hh | ht | ha
        · exact .inl hs
        · exact .inr (.inl hh)
        · exact .inr (.inr (.inl ht))
        · exact .inr (.inr (.inr ((hlost x k).2 (.inl ha))))
      others := by
        intro t' hsets x j hbegun hj
        rcases h.others t' hsets x j hbegun hj with hs | ha
        · exact .inl hs
        · exact .inr ((hlost x j).2 (.inl ha))
      lost := by
        intro x k hx
        rcases (hlost x k).1 hx with ha | ⟨hbegun, hmem⟩
        · exact h.lost x k ha
        · apply (h.heads hcalls).throws hthrows x k hmem
          intro hcreate
          have hfresh := h.fresh t x k (by rw [hcalls]; exact List.mem_cons_of_mem _ hcreate)
          rw [hfresh] at hbegun
          cases hbegun }
  have hforget : ∀ x, .forget x ∈ configureFailed message := by
    intro x
    cases x <;> simp [configureFailed, teardown]
  have hsets : ¬SetsUp (configureFailed message) := by
    simp [SetsUp, configureFailed, teardown, Stmt.setUp?]
  have hraise : s.raise t rest message =
      ({ s with abandoned := lost } : Player).goOn t (configureFailed message) := by
    rw [hdef]
    rfl
  rw [hraise]
  apply hkept.goOn
  refine ⟨wellFormed_configureFailed message, ?_, ?_, ?_, ?_, ?_, fun hs => absurd hs hsets,
    fun hs => absurd hs hsets, ?_, ?_,
    fun x k hmem => absurd ⟨_, hmem, by simp [Stmt.setUp?]⟩ hsets⟩
  · intro x k hmem hbegun
    have hin : .store x k ∈ stmt :: rest := hcalls ▸ hmem
    rcases List.mem_cons.1 hin with rfl | hin
    · cases hthrows
    · exact .inr (.inr (.inr ((hlost x k).2 (.inr ⟨hbegun, hin⟩))))
  · intro stmt' hmem k hk
    exact absurd ⟨stmt', hmem, by simp [hk]⟩ hsets
  · intro x k hmem
    exact absurd ⟨_, hmem, by simp [Stmt.setUp?]⟩ hsets
  · intro _ x
    exact .inl (hforget x)
  · intro x q k hq
    cases hq
  · intro x _ _ _
    exact hforget x
  · intro x _ _ _ _
    exact .inr (.inr (hforget x))

end Player

/-! ## Runs -/

theorem kept_init : init.Kept := by
  constructor <;> simp [init, WellFormed, Tears, SetsUp]

theorem Player.Kept.exec {s : Player} (h : s.Kept) (ha : s.Alone) {t : Nat} {stmt : Stmt}
    {rest : List Stmt} (hcalls : s.calls t = stmt :: rest) : (s.exec t stmt rest).Kept := by
  cases stmt with
  | unlessRunning =>
    have hlast := (h.heads hcalls).returns (.inl rfl)
    rw [hlast] at hcalls
    simp only [Player.exec]
    split
    · exact h.ends hcalls (by simp) (by simp) trivial (by simp [SetsUp]) (by simp [Tears])
    · apply h.ends hcalls (by simp) (by simp)
      · refine ⟨?_, wellFormed_last rfl rfl (by simp)⟩
        constructor <;> simp [Stmt.setUp?, Stmt.throws]
      · simp [SetsUp, Stmt.setUp?]
      · simp [Tears]
  | acceptHeader header =>
    simp only [Player.exec]
    split
    · have hlast := (h.heads hcalls).returns (.inr ⟨header, rfl⟩)
      rw [hlast] at hcalls
      exact h.ends hcalls (by simp) (by simp) (wellFormed_last rfl rfl (by simp))
        (by simp [SetsUp, Stmt.setUp?]) (by simp [Tears])
    · exact h.configure ha hcalls
  | settle x => exact h.settle ha hcalls
  | forget x => exact h.forget ha hcalls
  | create x k => exact h.create ha hcalls
  | store x k => exact h.store ha hcalls
  | running | phase | lastError | clearPcm | resetPcm | channels | attempt =>
    exact (h.skip hcalls (by simp) (by simp) (by simp)).congr ⟨rfl, rfl, rfl, rfl, rfl, rfl, rfl⟩

theorem kept_step {s s' : Player} {a : Action} (h : s.Kept ∧ s.Alone)
    (ha : machine.Reaching Player.Alone s a) (hstep : machine.step s a = some s') :
    s'.Kept ∧ s'.Alone := by
  refine ⟨?_, ha s' hstep⟩
  cases step_cases hstep with
  | calls c hidle => exact h.1.call hidle c
  | executes hcalls => exact h.1.exec h.2 hcalls
  | raises message hcalls hthrows => exact h.1.raise hcalls hthrows message
  | threads hthread => exact h.1.congr hthread.sameBooks

theorem kept_run {as : List Action} {s : Player}
    (halone : machine.Along (machine.Reaching Player.Alone) as) (hrun : machine.run as = some s) :
    s.Kept ∧ s.Alone :=
  machine.run_invariant_along ⟨kept_init, by simp [Player.Alone, machine, init]⟩
    (fun _ _ _ h ha => kept_step h ha) halone hrun

end PadPlay.Device.AudioThreads
