import Mathlib.Data.List.Basic

/-!
# What a sequence has, in the order it is first seen

An accumulator that grows at its end by what it does not hold yet (`pushNew`) holds, after a whole
sequence, each element once, in the order of their first places (`FirstSeen.foldl`). `Selects` is
the sequence of the images under a relation that some elements have none in.
-/

namespace PadPlay.Lib

/-! ## Selection -/

/-- The images of the elements, in order; those without one are left out. -/
inductive Selects {α β : Type} (R : α → β → Prop) : List α → List β → Prop
  | nil : Selects R [] []
  | skip {a l l'} (h : ∀ b, ¬R a b) (hl : Selects R l l') : Selects R (a :: l) l'
  | take {a b l l'} (h : R a b) (hl : Selects R l l') : Selects R (a :: l) (b :: l')

theorem selects_filterMap {α β : Type} {R : α → β → Prop} {f : α → Option β}
    (h : ∀ a b, f a = some b ↔ R a b) (l : List α) : Selects R l (l.filterMap f) := by
  induction l with
  | nil => exact .nil
  | cons a l ih =>
    cases hf : f a with
    | none =>
      rw [List.filterMap_cons_none hf]
      refine .skip (fun b hb => ?_) ih
      cases hf.symm.trans ((h a b).2 hb)
    | some b =>
      rw [List.filterMap_cons_some hf]
      exact .take ((h a b).1 hf) ih

/-! ## Accumulation -/

variable {α : Type} [DecidableEq α]

/-- Onto the end, unless it is there. -/
def pushNew (l : List α) (a : α) : List α := if a ∈ l then l else l ++ [a]

/-- Each element of the sequence once, and before those that come to be seen later. -/
structure FirstSeen (seen l : List α) : Prop where
  mem : ∀ a, a ∈ l ↔ a ∈ seen
  order : l.Pairwise fun a b => seen.idxOf a < seen.idxOf b

theorem FirstSeen.nil : FirstSeen ([] : List α) [] := ⟨fun _ => Iff.rfl, .nil⟩

theorem FirstSeen.nodup {seen l : List α} (h : FirstSeen seen l) : l.Nodup := by
  refine h.order.imp ?_
  rintro a b hlt rfl
  exact Nat.lt_irrefl _ hlt

theorem FirstSeen.pushNew {seen l : List α} (h : FirstSeen seen l) (a : α) :
    FirstSeen (seen ++ [a]) (pushNew l a) := by
  have hold : l.Pairwise fun b c => (seen ++ [a]).idxOf b < (seen ++ [a]).idxOf c := by
    refine h.order.imp_of_mem fun hb hc hlt => ?_
    rw [List.idxOf_append_of_mem ((h.mem _).1 hb), List.idxOf_append_of_mem ((h.mem _).1 hc)]
    exact hlt
  rw [Lib.pushNew]
  split
  · next ha =>
    refine ⟨fun b => ?_, hold⟩
    rw [List.mem_append, List.mem_singleton, h.mem]
    constructor
    · exact .inl
    · rintro (hb | rfl)
      · exact hb
      · exact (h.mem _).1 ha
  · next ha =>
    refine ⟨fun b => by rw [List.mem_append, List.mem_append, h.mem], ?_⟩
    rw [List.pairwise_append]
    refine ⟨hold, List.pairwise_singleton .., fun b hb c hc => ?_⟩
    -- the new element is seen where the sequence ended before
    rw [List.mem_singleton.1 hc, List.idxOf_append_of_mem ((h.mem b).1 hb),
      List.idxOf_append_of_notMem fun hmem => ha ((h.mem a).2 hmem)]
    exact Nat.lt_add_right _ (List.idxOf_lt_length_of_mem ((h.mem b).1 hb))

theorem FirstSeen.append {seen l : List α} (h : FirstSeen seen l) (more : List α) :
    FirstSeen (seen ++ more) (more.foldl Lib.pushNew l) := by
  induction more generalizing seen l with
  | nil =>
    rw [List.append_nil]
    exact h
  | cons a more ih =>
    rw [List.append_cons]
    exact ih (h.pushNew a)

/-- **The whole sequence**, from nothing. -/
theorem FirstSeen.foldl (seen : List α) : FirstSeen seen (seen.foldl Lib.pushNew []) :=
  FirstSeen.nil.append seen

end PadPlay.Lib
