import Mathlib.Data.List.Forall2

/-!
# Computations that can fail

When a sequence of `Except` computations returns, and which failure it reports: that of the first
one that fails.
-/

namespace PadPlay.Lib.Fallible

variable {ε α β : Type}

@[simp] theorem toOption_ok (a : α) : (.ok a : Except ε α).toOption = some a := rfl

@[simp] theorem toOption_error (e : ε) : (.error e : Except ε α).toOption = none := rfl

theorem bind_eq_ok {x : Except ε α} {f : α → Except ε β} {b : β} :
    x >>= f = .ok b ↔ ∃ a, x = .ok a ∧ f a = .ok b := by
  cases x with
  | error e =>
    constructor
    · intro h
      cases h
    · rintro ⟨a, h, -⟩
      cases h
  | ok a =>
    constructor
    · intro h
      exact ⟨a, rfl, h⟩
    · rintro ⟨a, ha, h⟩
      cases ha
      exact h

theorem bind_eq_error {x : Except ε α} {f : α → Except ε β} {e : ε} :
    x >>= f = .error e ↔ x = .error e ∨ ∃ a, x = .ok a ∧ f a = .error e := by
  cases x with
  | error e' =>
    constructor
    · intro h
      cases h
      exact .inl rfl
    · rintro (h | ⟨a, h, -⟩) <;> cases h
      rfl
  | ok a =>
    constructor
    · intro h
      exact .inr ⟨a, rfl, h⟩
    · rintro (h | ⟨a, ha, h⟩)
      · cases h
      · cases ha
        exact h

/-- A list is mapped when each of its elements is. -/
theorem mapM_eq_ok {f : α → Except ε β} {l : List α} {bs : List β} :
    l.mapM f = .ok bs ↔ List.Forall₂ (fun a b => f a = .ok b) l bs := by
  induction l generalizing bs with
  | nil =>
    rw [List.mapM_nil, List.forall₂_nil_left_iff]
    exact ⟨fun h => by cases h; rfl, fun h => by rw [h]; rfl⟩
  | cons a l ih =>
    rw [List.mapM_cons, bind_eq_ok, List.forall₂_cons_left_iff]
    simp only [bind_eq_ok, ih]
    constructor
    · rintro ⟨b, hb, bs', hbs, h⟩
      cases h
      exact ⟨b, bs', hb, hbs, rfl⟩
    · rintro ⟨b, bs', hb, hbs, rfl⟩
      exact ⟨b, hb, bs', hbs, rfl⟩

theorem exists_of_mapM {f : α → Except ε β} {l : List α} {bs : List β} (h : l.mapM f = .ok bs) :
    ∀ a ∈ l, ∃ b, f a = .ok b := by
  have hall := mapM_eq_ok.1 h
  clear h
  induction hall with
  | nil => simp
  | @cons a b _ _ hb _ ih => exact List.forall_mem_cons.2 ⟨⟨b, hb⟩, ih⟩

/-- The error is that of the first element that fails. -/
theorem mapM_eq_error {f : α → Except ε β} {l : List α} {e : ε} :
    l.mapM f = .error e ↔
      ∃ before a after, l = before ++ a :: after ∧ (∀ b ∈ before, ∃ c, f b = .ok c) ∧
        f a = .error e := by
  induction l with
  | nil =>
    rw [List.mapM_nil]
    constructor
    · intro h
      cases h
    · rintro ⟨before, a, after, h, -⟩
      simp at h
  | cons a l ih =>
    rw [List.mapM_cons, bind_eq_error]
    constructor
    · rintro (ha | ⟨b, hb, h⟩)
      · exact ⟨[], a, l, rfl, by simp, ha⟩
      · rcases bind_eq_error.1 h with h | ⟨bs, -, h⟩
        · obtain ⟨before, a', after, rfl, hbefore, ha'⟩ := ih.1 h
          refine ⟨a :: before, a', after, rfl, ?_, ha'⟩
          rw [List.forall_mem_cons]
          exact ⟨⟨b, hb⟩, hbefore⟩
        · cases h
    · rintro ⟨before, a', after, heq, hbefore, ha'⟩
      cases before with
      | nil =>
        cases heq
        exact .inl ha'
      | cons b before =>
        cases heq
        obtain ⟨⟨c, hc⟩, hbefore⟩ := List.forall_mem_cons.1 hbefore
        exact .inr ⟨c, hc, bind_eq_error.2 (.inl (ih.2 ⟨before, a', after, rfl, hbefore, ha'⟩))⟩

end PadPlay.Lib.Fallible
