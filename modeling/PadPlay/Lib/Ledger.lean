import Mathlib.Data.List.Basic

/-!
# Ledgers of outside resources

A computation that creates resources outside the program leaves a log of what it created and
removed. The log is settled when each creation is followed by exactly one removal. The rules take a
log apart the way scopes nest: what is owned for the length of a scope and removed at its end does
not matter to whether the rest is settled. Behind them is the world that logs leave, one after the
other, also when removals fail.
-/

namespace PadPlay.Lib

inductive Use (ρ : Type) where
  | created (r : ρ)
  | removed (r : ρ)
  deriving DecidableEq, Repr

/-- The outcome of a computation that can fail, and what it did to outside resources. -/
structure Traced (ρ ε α : Type) where
  outcome : Except ε α
  log : List (Use ρ)

variable {ρ : Type}

/-- Nothing happens to a resource. -/
def Untouched (r : ρ) (log : List (Use ρ)) : Prop := .created r ∉ log ∧ .removed r ∉ log

theorem untouched_append {r : ρ} {l₁ l₂ : List (Use ρ)} :
    Untouched r (l₁ ++ l₂) ↔ Untouched r l₁ ∧ Untouched r l₂ := by
  simp only [Untouched, List.mem_append, not_or]
  tauto

/-! ## Removals that fail -/

/-- What a log does to the world where some of its removals, by their places in it, do nothing. -/
def effects (fails : Nat → Bool) : List (Use ρ) → List (Use ρ)
  | [] => []
  | .created r :: log => .created r :: effects (fun n => fails (n + 1)) log
  | .removed r :: log =>
    if fails 0 then effects (fun n => fails (n + 1)) log
    else .removed r :: effects (fun n => fails (n + 1)) log

/-- A removal of the resource fails. -/
def Stays (fails : Nat → Bool) (r : ρ) (log : List (Use ρ)) : Prop :=
  ∃ i, log[i]? = some (.removed r) ∧ fails i = true

section
variable {r : ρ} {fails : Nat → Bool} {log l₁ l₂ : List (Use ρ)}

theorem effects_append : effects fails (l₁ ++ l₂) =
    effects fails l₁ ++ effects (fun n => fails (n + l₁.length)) l₂ := by
  induction l₁ generalizing fails with
  | nil => rfl
  | cons u l₁ ih =>
    cases u with
    | created r' =>
      rw [List.cons_append, effects, effects, ih, List.cons_append]
      rfl
    | removed r' =>
      rw [List.cons_append, effects, effects, ih]
      split <;> rfl

theorem stays_cons {u : Use ρ} : Stays fails r (u :: log) ↔
    u = .removed r ∧ fails 0 = true ∨ Stays (fun n => fails (n + 1)) r log := by
  constructor
  · rintro ⟨i, hi, hfails⟩
    cases i with
    | zero => exact .inl ⟨Option.some.inj hi, hfails⟩
    | succ i => exact .inr ⟨i, hi, hfails⟩
  · rintro (⟨rfl, hfails⟩ | ⟨i, hi, hfails⟩)
    · exact ⟨0, rfl, hfails⟩
    · exact ⟨i + 1, hi, hfails⟩

theorem not_stays (h : .removed r ∉ log) : ¬ Stays fails r log := by
  rintro ⟨i, hi, -⟩
  exact h (List.mem_of_getElem? hi)

/-- Only what is touched is affected. -/
theorem mem_effects {u : Use ρ} (h : u ∈ effects fails log) : u ∈ log := by
  fun_induction effects fails log with
  | case1 => exact h
  | case2 fails r' log ih =>
    rw [List.mem_cons] at h ⊢
    exact h.imp_right ih
  | case3 fails r' log hfails ih => exact List.mem_cons_of_mem _ (ih h)
  | case4 fails r' log hfails ih =>
    rw [List.mem_cons] at h ⊢
    exact h.imp_right ih

end

/-! ## Settled logs -/

variable [DecidableEq ρ]

/-- Each creation is followed by exactly one removal. -/
def Settled : List (Use ρ) → Prop
  | [] => True
  | .created r :: log => log.count (.removed r) = 1 ∧ Settled log
  | .removed _ :: log => Settled log

instance decidableSettled : ∀ log : List (Use ρ), Decidable (Settled log)
  | [] => .isTrue trivial
  | .created _ :: log =>
    have := decidableSettled log
    inferInstanceAs (Decidable (_ ∧ Settled log))
  | .removed _ :: log => decidableSettled log

/-- A removal of what was not created before it does not matter. -/
theorem settled_removed {r : ρ} {before after : List (Use ρ)} (h : .created r ∉ before) :
    Settled (before ++ .removed r :: after) ↔ Settled (before ++ after) := by
  induction before with
  | nil => rfl
  | cons u before ih =>
    rw [List.mem_cons, not_or] at h
    cases u with
    | created r' =>
      have hne : r ≠ r' := fun heq => h.1 (heq ▸ rfl)
      simp only [List.cons_append, Settled, ih h.2, List.count_append]
      rw [List.count_cons_of_ne (by simpa using hne)]
    | removed r' => exact ih h.2

/-- Two logs are settled apart if the second removes nothing of the first. -/
theorem settled_append {l₁ l₂ : List (Use ρ)} (h : ∀ r, .created r ∈ l₁ → .removed r ∉ l₂) :
    Settled (l₁ ++ l₂) ↔ Settled l₁ ∧ Settled l₂ := by
  induction l₁ with
  | nil => exact (and_iff_right trivial).symm
  | cons u l₁ ih =>
    have hl₁ := ih fun r hr => h r (List.mem_cons_of_mem u hr)
    cases u with
    | created r =>
      have hr : .removed r ∉ l₂ := h r List.mem_cons_self
      simp only [List.cons_append, Settled, hl₁, List.count_append, List.count_eq_zero.2 hr,
        Nat.add_zero, and_assoc]
    | removed r => exact hl₁

/-- **A scope** that owns a resource and removes it at its end is settled as what is inside and
behind it is. -/
theorem settled_owned {r : ρ} {inner outer : List (Use ρ)} (hinner : Untouched r inner)
    (houter : Untouched r outer) :
    Settled (.created r :: (inner ++ .removed r :: outer)) ↔ Settled (inner ++ outer) := by
  have hcount : (inner ++ .removed r :: outer).count (.removed r) = 1 := by
    rw [List.count_append, List.count_cons_self, List.count_eq_zero.2 hinner.2,
      List.count_eq_zero.2 houter.2]
  simp only [Settled, hcount, true_and, settled_removed hinner.1]

/-! ## What a log leaves in the world -/

/-- Each creation adds one; a removal takes whatever goes by the name. -/
def Use.apply (world : List ρ) : Use ρ → List ρ
  | .created r => world ++ [r]
  | .removed r => world.filter (· ≠ r)

def after (world : List ρ) (log : List (Use ρ)) : List ρ := log.foldl Use.apply world

/-- Whether a log leaves a resource there or gone, if it touches it. -/
def lastUse (r : ρ) : List (Use ρ) → Option Bool
  | [] => none
  | .created r' :: log => (lastUse r log).or (if r' = r then some true else none)
  | .removed r' :: log => (lastUse r log).or (if r' = r then some false else none)

theorem lastUse_append (r : ρ) (l₁ l₂ : List (Use ρ)) :
    lastUse r (l₁ ++ l₂) = (lastUse r l₂).or (lastUse r l₁) := by
  induction l₁ with
  | nil => exact (Option.or_none).symm
  | cons u l₁ ih => cases u <;> simp only [List.cons_append, lastUse, ih, Option.or_assoc]

theorem lastUse_untouched {r : ρ} {log : List (Use ρ)} (h : Untouched r log) :
    lastUse r log = none := by
  induction log with
  | nil => rfl
  | cons u log ih =>
    simp only [Untouched, List.mem_cons, not_or] at h ih
    obtain ⟨⟨hcreated, hc⟩, hremoved, hr⟩ := h
    cases u with
    | created r' =>
      have hne : r' ≠ r := fun heq => hcreated (heq ▸ rfl)
      simp only [lastUse, ih ⟨hc, hr⟩, if_neg hne, Option.or_none]
    | removed r' =>
      have hne : r' ≠ r := fun heq => hremoved (heq ▸ rfl)
      simp only [lastUse, ih ⟨hc, hr⟩, if_neg hne, Option.or_none]

/-- **The last use decides.** -/
theorem mem_after {r : ρ} {world : List ρ} {log : List (Use ρ)} :
    r ∈ after world log ↔ (lastUse r log).getD (decide (r ∈ world)) = true := by
  induction log generalizing world with
  | nil => simp [after, lastUse]
  | cons u log ih =>
    have hstep : after world (u :: log) = after (u.apply world) log := rfl
    rw [hstep, ih]
    cases u with
    | created r' =>
      cases hlast : lastUse r log with
      | some there => simp [lastUse, hlast]
      | none =>
        by_cases heq : r' = r
        · subst heq
          simp [lastUse, hlast, Use.apply]
        · have hne : r ≠ r' := fun h => heq h.symm
          simp [lastUse, hlast, Use.apply, heq, hne]
    | removed r' =>
      cases hlast : lastUse r log with
      | some there => simp [lastUse, hlast]
      | none =>
        by_cases heq : r' = r
        · subst heq
          simp [lastUse, hlast, Use.apply]
        · have hne : r ≠ r' := fun h => heq h.symm
          simp [lastUse, hlast, Use.apply, heq, hne]

/-- **A scope** that owns a resource leaves it gone. -/
theorem lastUse_owned {r : ρ} (inner : List (Use ρ)) {outer : List (Use ρ)}
    (houter : Untouched r outer) : lastUse r (inner ++ .removed r :: outer) = some false := by
  rw [lastUse_append, lastUse, lastUse_untouched houter, if_pos rfl]
  rfl

/-- What is never removed is there as often as it was created. -/
theorem count_after {r : ρ} {world : List ρ} {log : List (Use ρ)} (h : .removed r ∉ log) :
    (after world log).count r = world.count r + log.count (.created r) := by
  induction log generalizing world with
  | nil => rfl
  | cons u log ih =>
    rw [List.mem_cons, not_or] at h
    have hstep : after world (u :: log) = after (u.apply world) log := rfl
    rw [hstep, ih h.2]
    cases u with
    | created r' =>
      by_cases heq : r' = r
      · subst heq
        rw [Use.apply, List.count_append, List.count_singleton_self, List.count_cons_self]
        omega
      · have hne : (Use.created r' : Use ρ) ≠ .created r := by simpa using heq
        rw [Use.apply, List.count_append, List.count_singleton, List.count_cons_of_ne hne,
          if_neg (by simpa using heq)]
        rfl
    | removed r' =>
      have hne : r ≠ r' := fun heq => h.1 (heq ▸ rfl)
      rw [Use.apply, List.count_filter (by simpa using hne), List.count_cons_of_ne (by simp)]

section
variable {r : ρ} {fails : Nat → Bool} {log inner outer : List (Use ρ)}

theorem count_created_effects :
    (effects fails log).count (.created r) = log.count (.created r) := by
  fun_induction effects fails log with
  | case1 => rfl
  | case2 fails r' log ih => rw [List.count_cons, List.count_cons, ih]
  | case3 fails r' log hfails ih => rw [ih, List.count_cons_of_ne (by simp)]
  | case4 fails r' log hfails ih =>
    rw [List.count_cons_of_ne (by simp), ih, List.count_cons_of_ne (by simp)]

/-- To a resource of which no removal fails the others do not matter. -/
theorem lastUse_effects (h : ¬ Stays fails r log) :
    lastUse r (effects fails log) = lastUse r log := by
  fun_induction effects fails log with
  | case1 => rfl
  | case2 fails r' log ih =>
    rw [stays_cons, not_or] at h
    rw [lastUse, lastUse, ih h.2]
  | case3 fails r' log hfails ih =>
    rw [stays_cons, not_or] at h
    have hne : r' ≠ r := fun heq => h.1 ⟨heq ▸ rfl, hfails⟩
    rw [ih h.2, lastUse, if_neg hne, Option.or_none]
  | case4 fails r' log hfails ih =>
    rw [stays_cons, not_or] at h
    rw [lastUse, lastUse, ih h.2]

/-- **A scope** whose removal fails leaves what was there at its end. -/
theorem lastUse_stays (hinner : .removed r ∉ inner) (houter : Untouched r outer)
    (h : Stays fails r (inner ++ .removed r :: outer)) :
    lastUse r (effects fails (inner ++ .removed r :: outer)) = lastUse r inner := by
  have hfails : fails inner.length = true := by
    obtain ⟨i, hi, hfails⟩ := h
    rcases Nat.lt_trichotomy i inner.length with hlt | rfl | hlt
    · rw [List.getElem?_append_left hlt] at hi
      exact absurd (List.mem_of_getElem? hi) hinner
    · exact hfails
    · obtain ⟨k, rfl⟩ := Nat.exists_eq_add_of_lt hlt
      rw [List.getElem?_append_right (by omega), Nat.add_assoc, Nat.add_sub_cancel_left,
        List.getElem?_cons_succ] at hi
      exact absurd (List.mem_of_getElem? hi) houter.2
  rw [effects_append, effects, if_pos (by simpa using hfails), lastUse_append,
    lastUse_effects (not_stays hinner), lastUse_untouched, Option.none_or]
  exact ⟨fun hmem => houter.1 (mem_effects hmem), fun hmem => houter.2 (mem_effects hmem)⟩

end

end PadPlay.Lib
