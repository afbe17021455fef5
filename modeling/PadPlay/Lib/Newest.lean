import Mathlib.Data.List.Basic

/-!
# Bounded queues

A queue with room for `max` items that drops its oldest one to make room for a new one, or does not
take the new one before there is room (`BoundedQueue`). Against the log of what was pushed, one that
drops holds the newest items (`Newest`), and what was taken off its front, followed by what it
holds, is a part of the log in order (`taken_sublist_push`).
-/

namespace PadPlay.Lib

variable {α : Type}

def pushNewest (max : Nat) (q : List α) (x : α) : List α :=
  if q.length < max then q ++ [x] else q.tail ++ [x]

theorem pushNewest_cases (max : Nat) (q : List α) (x : α) :
    pushNewest max q x = q ++ [x] ∨ (max ≤ q.length ∧ pushNewest max q x = q.tail ++ [x]) := by
  unfold pushNewest
  split
  · exact .inl rfl
  · next hfull => exact .inr ⟨Nat.le_of_not_lt hfull, rfl⟩

@[simp] theorem getLast?_pushNewest (max : Nat) (q : List α) (x : α) :
    (pushNewest max q x).getLast? = some x := by
  rcases pushNewest_cases max q x with h | ⟨-, h⟩ <;> rw [h, List.getLast?_concat]

theorem length_pushNewest_le {max : Nat} {q : List α} (hmax : 0 < max) (h : q.length ≤ max)
    (x : α) : (pushNewest max q x).length ≤ max := by
  unfold pushNewest
  split
  · next hlt =>
    rw [List.length_append]
    exact hlt
  · rw [List.length_append, List.length_tail, List.length_singleton]
    omega

/-- A queue grows by at most one item, and not at all when it is full. -/
theorem length_pushNewest_le_succ (max : Nat) (q : List α) (x : α) :
    (pushNewest max q x).length ≤ q.length + 1 := by
  unfold pushNewest
  split <;> simp only [List.length_append, List.length_tail, List.length_singleton] <;> omega

/-! ## Queues by what they do -/

/-- Any queue that makes room by dropping its oldest item if `drop` is set, and else does not take
what there is no room for. -/
structure BoundedQueue (α : Type) (max : Nat) (drop : Bool) where
  push : List α → α → Option (List α)
  queues : ∀ {q : List α} {x : α}, q.length < max → push q x = some (q ++ [x])
  drops : drop = true → ∀ {q : List α} {x : α}, max ≤ q.length → push q x = some (q.tail ++ [x])
  waits : drop = false → ∀ {q : List α} {x : α}, max ≤ q.length → push q x = none

namespace BoundedQueue

variable {max : Nat} {drop : Bool}

/-- There is such a queue. -/
def plain (α : Type) (max : Nat) (drop : Bool) : BoundedQueue α max drop where
  push q x :=
    if q.length < max then some (q ++ [x]) else if drop then some (q.tail ++ [x]) else none
  queues h := if_pos h
  drops hdrop _ _ h := by rw [if_neg (Nat.not_lt.2 h), hdrop, if_pos rfl]
  waits hdrop _ _ h := by rw [if_neg (Nat.not_lt.2 h), hdrop, if_neg Bool.false_ne_true]

/-- What is in the queue once it has taken an item. -/
theorem push_cases (b : BoundedQueue α max drop) {q q' : List α} {x : α}
    (h : b.push q x = some q') : (q.length < max ∨ drop = true) ∧ q' = pushNewest max q x := by
  unfold pushNewest
  by_cases hlt : q.length < max
  · rw [b.queues hlt] at h
    rw [if_pos hlt]
    exact ⟨.inl hlt, (Option.some.inj h).symm⟩
  · rw [if_neg hlt]
    cases hdrop : drop with
    | true =>
      rw [b.drops hdrop (Nat.le_of_not_lt hlt)] at h
      exact ⟨.inr rfl, (Option.some.inj h).symm⟩
    | false =>
      rw [b.waits hdrop (Nat.le_of_not_lt hlt)] at h
      cases h

/-- A queue that drops takes everything. -/
theorem push_drops (b : BoundedQueue α max true) (q : List α) (x : α) :
    b.push q x = some (pushNewest max q x) := by
  unfold pushNewest
  split
  · next hlt => exact b.queues hlt
  · next hfull => exact b.drops rfl (Nat.le_of_not_lt hfull)

end BoundedQueue

/-! ## What a queue that drops holds -/

/-- The queue holds the newest items of the log, at most `max`. -/
structure Newest (max : Nat) (log q : List α) : Prop where
  suffix : q <:+ log
  length_le : q.length ≤ max

namespace Newest

variable {max : Nat} {log q : List α}

theorem nil (max : Nat) (log : List α) : Newest max log [] := ⟨List.nil_suffix, Nat.zero_le _⟩

theorem push (h : Newest max log q) (hmax : 0 < max) (x : α) :
    Newest max (log ++ [x]) (pushNewest max q x) := by
  refine ⟨?_, length_pushNewest_le hmax h.length_le x⟩
  rcases pushNewest_cases max q x with heq | ⟨-, heq⟩
  · rw [heq]
    obtain ⟨older, holder⟩ := h.suffix
    exact ⟨older, by rw [← holder, List.append_assoc]⟩
  · rw [heq]
    obtain ⟨older, holder⟩ := (List.tail_suffix q).trans h.suffix
    exact ⟨older, by rw [← holder, List.append_assoc]⟩

theorem take {x : α} (h : Newest max log (x :: q)) : Newest max log q := by
  refine ⟨(List.suffix_cons x q).trans h.suffix, ?_⟩
  have hle := h.length_le
  rw [List.length_cons] at hle
  omega

/-- What is at the front has fewer than `max` newer items behind it. -/
theorem front {x : α} (h : Newest max log (x :: q)) :
    ∃ older, log = older ++ x :: q ∧ q.length < max := by
  obtain ⟨older, holder⟩ := h.suffix
  exact ⟨older, holder.symm, h.length_le⟩

/-- Of items numbered as they were pushed, the one at the front is at most `max` behind. -/
theorem front_range {x n : Nat} {q : List Nat} (h : Newest max (List.range n) (x :: q)) :
    n ≤ x + max := by
  obtain ⟨older, hlog, hlt⟩ := h.front
  have hlength := congrArg List.length hlog
  rw [List.length_range, List.length_append, List.length_cons] at hlength
  have hx : (List.range n)[older.length]? = some x := by rw [hlog]; simp
  rw [List.getElem?_eq_some_iff] at hx
  obtain ⟨hbound, hx⟩ := hx
  rw [List.getElem_range] at hx
  omega

end Newest

/-- **In order, each at most once**: what is taken, and then what waits. -/
theorem taken_sublist_push {max : Nat} {log taken q : List α} (h : (taken ++ q).Sublist log)
    (x : α) : (taken ++ pushNewest max q x).Sublist (log ++ [x]) := by
  rcases pushNewest_cases max q x with heq | ⟨-, heq⟩
  · rw [heq, ← List.append_assoc]
    exact h.append_right [x]
  · rw [heq, ← List.append_assoc]
    have htail : (taken ++ q.tail).Sublist (taken ++ q) := (List.tail_sublist q).append_left taken
    exact (htail.trans h).append_right [x]

end PadPlay.Lib
