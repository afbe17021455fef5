import Mathlib.Data.List.Basic

/-!
# Transducers

A machine that reads one symbol after the other, changes its state and writes. A lexer is one that
reads bytes and writes tokens, a parser of a language without nesting one that reads tokens. What it
makes of a text is put together from what it makes of the parts (`runs_append`).
-/

namespace PadPlay.Lib

structure Transducer (σ ι ο : Type) where
  init : σ
  step : σ → ι → Option (σ × List ο)
  /-- what is written at the end, if the input may end here -/
  finish : σ → Option (List ο)

namespace Transducer

variable {σ ι ο : Type} (m : Transducer σ ι ο)

def runFrom : σ → List ι → Option (σ × List ο)
  | s, [] => some (s, [])
  | s, i :: input =>
    (m.step s i).bind fun next =>
      (runFrom next.1 input).map fun rest => (rest.1, next.2 ++ rest.2)

def output (input : List ι) : Option (List ο) :=
  (m.runFrom m.init input).bind fun run => (m.finish run.1).map (run.2 ++ ·)

/-- From one state to another, reading and writing. -/
def Runs (s : σ) (input : List ι) (t : σ) (written : List ο) : Prop :=
  m.runFrom s input = some (t, written)

variable {m}

theorem runs_nil (s : σ) : m.Runs s [] s [] := rfl

theorem runs_cons {s t u : σ} {i : ι} {input : List ι} {written more : List ο}
    (hstep : m.step s i = some (t, written)) (h : m.Runs t input u more) :
    m.Runs s (i :: input) u (written ++ more) := by
  have h : m.runFrom t input = some (u, more) := h
  rw [Runs, runFrom, hstep, Option.bind_some, h]
  rfl

/-- What the first symbol does, and what the rest does. -/
theorem runs_uncons {s u : σ} {i : ι} {input : List ι} {written : List ο}
    (h : m.Runs s (i :: input) u written) :
    ∃ t first rest, m.step s i = some (t, first) ∧ m.Runs t input u rest ∧
      written = first ++ rest := by
  rw [Runs, runFrom] at h
  obtain ⟨⟨t, first⟩, hstep, hrun⟩ := Option.bind_eq_some_iff.1 h
  obtain ⟨⟨u', rest⟩, hrest, heq⟩ := Option.map_eq_some_iff.1 hrun
  cases heq
  exact ⟨t, first, rest, hstep, hrest, rfl⟩

theorem runs_append {s t u : σ} {input input' : List ι} {written written' : List ο}
    (h : m.Runs s input t written) (h' : m.Runs t input' u written') :
    m.Runs s (input ++ input') u (written ++ written') := by
  induction input generalizing s written with
  | nil => cases h; exact h'
  | cons i input ih =>
    obtain ⟨s₁, first, rest, hstep, hrest, rfl⟩ := runs_uncons h
    rw [List.cons_append, List.append_assoc]
    exact runs_cons hstep (ih hrest)

/-- Symbols that are only collected. -/
theorem runs_collect {collect : List ι → σ} {input : List ι}
    (hstep : ∀ i ∈ input, ∀ read, m.step (collect read) i = some (collect (i :: read), []))
    (read : List ι) : m.Runs (collect read) input (collect (input.reverse ++ read)) [] := by
  induction input generalizing read with
  | nil => exact runs_nil _
  | cons i input ih =>
    rw [List.reverse_cons, List.append_assoc]
    exact runs_cons (hstep i (List.mem_cons_self ..) read)
      (ih (fun j hj => hstep j (List.mem_cons_of_mem _ hj)) (i :: read))

/-- Pieces of one kind with a separator between them. -/
theorem runs_intercalate {α : Type} {s t : σ} {read : α → List ι} {write : α → List ο}
    {separator : List ι} {between : List ο} (hseparator : m.Runs t separator s between)
    {l : List α} (hne : l ≠ []) (h : ∀ a ∈ l, m.Runs s (read a) t (write a)) :
    m.Runs s (separator.intercalate (l.map read)) t (between.intercalate (l.map write)) := by
  induction l with
  | nil => exact absurd rfl hne
  | cons a l ih =>
    have ha := h a (List.mem_cons_self ..)
    cases l with
    | nil => simpa [List.intercalate] using ha
    | cons b l =>
      have hl := ih (List.cons_ne_nil _ _) fun c hc => h c (List.mem_cons_of_mem _ hc)
      simpa [List.intercalate] using runs_append ha (runs_append hseparator hl)

theorem Runs.output {s : σ} {input : List ι} {written last : List ο}
    (h : m.Runs m.init input s written) (hfinish : m.finish s = some last) :
    m.output input = some (written ++ last) := by
  have h : m.runFrom m.init input = some (s, written) := h
  rw [Transducer.output, h, Option.bind_some, hfinish]
  rfl

end Transducer

end PadPlay.Lib
