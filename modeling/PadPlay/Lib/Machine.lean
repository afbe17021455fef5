import Mathlib.Data.List.Basic

/-!
# State machines

A machine is an initial state and a partial step function on labelled actions; an action that is not
enabled has no step. `run` follows a list of actions. Two rules carry what one step preserves to a
whole run: an invariant of every step (`run_invariant`), and an invariant of the steps that meet a
condition on the action and the state it is taken in (`run_invariant_along`).
-/

namespace PadPlay.Lib

/-- A deterministic machine over states `σ` and actions `α`. -/
structure Machine (σ α : Type) where
  init : σ
  step : σ → α → Option σ

namespace Machine

variable {σ α : Type} (m : Machine σ α)

/-- The state after a list of actions, if each is enabled when its turn comes. -/
def runFrom : σ → List α → Option σ
  | s, [] => some s
  | s, a :: as => (m.step s a).bind fun s' => runFrom s' as

def run (as : List α) : Option σ := m.runFrom m.init as

/-- Every action of the list that is reached meets `C` in the state it is taken in. -/
def AlongFrom (C : σ → α → Prop) : σ → List α → Prop
  | _, [] => True
  | s, a :: as => C s a ∧ ∀ s', m.step s a = some s' → AlongFrom C s' as

def Along (C : σ → α → Prop) (as : List α) : Prop := m.AlongFrom C m.init as

theorem alongFrom_cons_none {C : σ → α → Prop} {s : σ} {a : α} {as : List α}
    (h : m.step s a = none) : m.AlongFrom C s (a :: as) ↔ C s a := by
  simp only [AlongFrom, h]
  exact ⟨And.left, fun hC => ⟨hC, nofun⟩⟩

theorem alongFrom_cons_some {C : σ → α → Prop} {s t : σ} {a : α} {as : List α}
    (h : m.step s a = some t) : m.AlongFrom C s (a :: as) ↔ C s a ∧ m.AlongFrom C t as := by
  simp only [AlongFrom, h, Option.some.injEq, forall_eq']

/-- Whether every step of a run meets a decidable condition is found by running it. -/
instance decidableAlongFrom (C : σ → α → Prop) [∀ s a, Decidable (C s a)] :
    ∀ (s : σ) (as : List α), Decidable (m.AlongFrom C s as)
  | _, [] => .isTrue trivial
  | s, a :: as =>
    match h : m.step s a with
    | none => decidable_of_iff _ (m.alongFrom_cons_none h).symm
    | some t =>
      have := decidableAlongFrom C t as
      decidable_of_iff _ (m.alongFrom_cons_some h).symm

instance decidableAlong (C : σ → α → Prop) [∀ s a, Decidable (C s a)] (as : List α) :
    Decidable (m.Along C as) := m.decidableAlongFrom C m.init as

@[simp] theorem runFrom_nil (s : σ) : m.runFrom s [] = some s := rfl

theorem runFrom_cons {s s' : σ} {a : α} {as : List α} :
    m.runFrom s (a :: as) = some s' ↔ ∃ t, m.step s a = some t ∧ m.runFrom t as = some s' :=
  Option.bind_eq_some_iff

theorem runFrom_append {s s' : σ} {as bs : List α} :
    m.runFrom s (as ++ bs) = some s' ↔
      ∃ t, m.runFrom s as = some t ∧ m.runFrom t bs = some s' := by
  induction as generalizing s with
  | nil => simp
  | cons a as ih =>
    simp only [List.cons_append, runFrom_cons, ih]
    constructor
    · intro ⟨u, hu, t, ht, hs⟩
      exact ⟨t, ⟨u, hu, ht⟩, hs⟩
    · intro ⟨t, ⟨u, hu, ht⟩, hs⟩
      exact ⟨u, hu, t, ht, hs⟩

/-- **Conditional invariants.** What the steps that meet a condition preserve holds at the end of
every run whose steps all meet it. -/
theorem runFrom_invariant_along {I : σ → Prop} {C : σ → α → Prop}
    (hstep : ∀ s a s', I s → C s a → m.step s a = some s' → I s') {s s' : σ} {as : List α}
    (hs : I s) (hC : m.AlongFrom C s as) (hrun : m.runFrom s as = some s') : I s' := by
  induction as generalizing s with
  | nil => cases hrun; exact hs
  | cons a as ih =>
    obtain ⟨t, ht, hrun⟩ := (m.runFrom_cons).1 hrun
    exact ih (hstep s a t hs hC.1 ht) (hC.2 t ht) hrun

theorem run_invariant_along {I : σ → Prop} {C : σ → α → Prop} (hinit : I m.init)
    (hstep : ∀ s a s', I s → C s a → m.step s a = some s' → I s') {s : σ} {as : List α}
    (hC : m.Along C as) (hrun : m.run as = some s) : I s :=
  m.runFrom_invariant_along hstep hinit hC hrun

theorem alongFrom_of_forall {C : σ → α → Prop} (h : ∀ s a, C s a) (s : σ) (as : List α) :
    m.AlongFrom C s as := by
  induction as generalizing s with
  | nil => trivial
  | cons a as ih => exact ⟨h s a, fun s' _ => ih s'⟩

/-- A condition on actions alone. -/
theorem alongFrom_of_mem {P : α → Prop} {as : List α} (h : ∀ a ∈ as, P a) (s : σ) :
    m.AlongFrom (fun _ a => P a) s as := by
  induction as generalizing s with
  | nil => trivial
  | cons a as ih =>
    rw [List.forall_mem_cons] at h
    exact ⟨h.1, fun s' _ => ih h.2 s'⟩

/-- **Invariants.** What every step preserves holds at the end of every run. -/
theorem run_invariant {I : σ → Prop} (hinit : I m.init)
    (hstep : ∀ s a s', I s → m.step s a = some s' → I s') {s : σ} {as : List α}
    (hrun : m.run as = some s) : I s :=
  m.run_invariant_along (C := fun _ _ => True) hinit (fun s a s' hs _ => hstep s a s' hs)
    (m.alongFrom_of_forall (fun _ _ => trivial) _ _) hrun

/-- **Exact conditions.** If a property holds after a step just when it held before and the step
meets a condition, then it holds after a run just when it held before and every step meets the
condition. -/
theorem runFrom_iff_along {I P : σ → Prop} {C : σ → α → Prop}
    (hI : ∀ s a s', I s → m.step s a = some s' → I s')
    (hP : ∀ s a s', I s → m.step s a = some s' → (P s' ↔ P s ∧ C s a)) {s s' : σ} {as : List α}
    (hs : I s) (hrun : m.runFrom s as = some s') : P s' ↔ P s ∧ m.AlongFrom C s as := by
  induction as generalizing s with
  | nil =>
    cases hrun
    exact (and_iff_left trivial).symm
  | cons a as ih =>
    obtain ⟨t, ht, hrun⟩ := (m.runFrom_cons).1 hrun
    rw [ih (hI s a t hs ht) hrun, hP s a t hs ht, m.alongFrom_cons_some ht, and_assoc]

/-- **Countdowns.** What every counted step lowers, and no step raises, bounds how many counted
steps a run has. -/
theorem runFrom_countdown_along {I : σ → Prop} {C : σ → α → Prop} {f : σ → Nat} {p : α → Bool}
    (hI : ∀ s a s', I s → C s a → m.step s a = some s' → I s')
    (hf : ∀ s a s', I s → C s a → m.step s a = some s' → f s' + (if p a then 1 else 0) ≤ f s)
    {s s' : σ} {as : List α} (hs : I s) (hC : m.AlongFrom C s as)
    (hrun : m.runFrom s as = some s') : f s' + as.countP p ≤ f s := by
  induction as generalizing s with
  | nil => cases hrun; exact Nat.le_refl _
  | cons a as ih =>
    obtain ⟨t, ht, hrun⟩ := (m.runFrom_cons).1 hrun
    have hstep := hf s a t hs hC.1 ht
    have hrest := ih (hI s a t hs hC.1 ht) (hC.2 t ht) hrun
    rw [List.countP_cons]
    omega

theorem runFrom_countdown {I : σ → Prop} {f : σ → Nat} {p : α → Bool}
    (hI : ∀ s a s', I s → m.step s a = some s' → I s')
    (hf : ∀ s a s', I s → m.step s a = some s' → f s' + (if p a then 1 else 0) ≤ f s)
    {s s' : σ} {as : List α} (hs : I s) (hrun : m.runFrom s as = some s') :
    f s' + as.countP p ≤ f s :=
  m.runFrom_countdown_along (C := fun _ _ => True) (fun s a s' hs _ => hI s a s' hs)
    (fun s a s' hs _ => hf s a s' hs) hs (m.alongFrom_of_forall (fun _ _ => trivial) _ _) hrun

/-- The step into every state a run reaches ends in a state with the property. -/
def Reaching (P : σ → Prop) (s : σ) (a : α) : Prop := ∀ s', m.step s a = some s' → P s'

/-- **Consequences.** A condition on steps that follows from another one, wherever an invariant of
the steps that meet that one holds, follows from it along every run. -/
theorem alongFrom_imp {I : σ → Prop} {C D : σ → α → Prop}
    (hstep : ∀ s a s', I s → C s a → m.step s a = some s' → I s')
    (himp : ∀ s a, I s → C s a → D s a) {s : σ} {as : List α} (hs : I s)
    (hC : m.AlongFrom C s as) : m.AlongFrom D s as := by
  induction as generalizing s with
  | nil => trivial
  | cons a as ih =>
    refine ⟨himp s a hs hC.1, ?_⟩
    intro s' hs'
    exact ih (hstep s a s' hs hC.1 hs') (hC.2 s' hs')

/-- **Equivalent conditions.** Two conditions on steps that agree wherever an invariant of the steps
that meet the first one holds, agree along every run. -/
theorem alongFrom_congr {I : σ → Prop} {C D : σ → α → Prop}
    (hstep : ∀ s a s', I s → C s a → m.step s a = some s' → I s')
    (hiff : ∀ s a, I s → (C s a ↔ D s a)) {s : σ} (hs : I s) (as : List α) :
    m.AlongFrom C s as ↔ m.AlongFrom D s as := by
  constructor
  · intro hC
    exact m.alongFrom_imp hstep (fun s a hs => (hiff s a hs).1) hs hC
  · intro hD
    refine m.alongFrom_imp ?_ (fun s a hs => (hiff s a hs).2) hs hD
    intro s a s' hs hD hs'
    exact hstep s a s' hs ((hiff s a hs).2 hD) hs'

end Machine

end PadPlay.Lib
