import Mathlib.Data.List.Basic

/-!
# Slots taken in rotation

`n` slots are taken one after the other, the first again behind the last. The user of a slot can
give back the one that was taken last, and the whole set of slots can be replaced, which starts the
rotation over. Behind a slot that was given back, each of the others is taken before it is taken
again (`Rotates.reuse`).
-/

namespace PadPlay.Lib

inductive SlotEvent where
  | taken (slot : Nat)
  /-- the slot that was taken last goes to its user -/
  | returned (slot : Nat)
  | renewed
  deriving DecidableEq, Repr

/-- A log of `n` slots in rotation, from the slot taken last, if there is one, and the next one. -/
inductive Rotates (n : Nat) : Option Nat → Nat → List SlotEvent → Prop
  | nil (last : Option Nat) (next : Nat) : Rotates n last next []
  | taken {last : Option Nat} {next : Nat} {log : List SlotEvent}
    (h : Rotates n (some next) ((next + 1) % n) log) : Rotates n last next (.taken next :: log)
  | returned {slot next : Nat} {log : List SlotEvent} (h : Rotates n (some slot) next log) :
    Rotates n (some slot) next (.returned slot :: log)
  | renewed {last : Option Nat} {next : Nat} {log : List SlotEvent} (h : Rotates n none 0 log) :
    Rotates n last next (.renewed :: log)

namespace Rotates

variable {n : Nat}

/-- The slot taken last matters only to a log that returns it first. -/
theorem forget {last : Option Nat} {next : Nat} {log : List SlotEvent}
    (h : Rotates n none next log) : Rotates n last next log := by
  cases h with
  | nil => exact .nil ..
  | taken h => exact .taken h
  | renewed h => exact .renewed h

/-- Behind a slot that is returned, the rotation goes on with the one after it. -/
theorem after_returned {last : Option Nat} {next slot : Nat} {before after : List SlotEvent}
    (hlast : ∀ s ∈ last, next = (s + 1) % n)
    (h : Rotates n last next (before ++ .returned slot :: after)) :
    Rotates n (some slot) ((slot + 1) % n) after := by
  induction before generalizing last next with
  | nil =>
    cases h with
    | returned h => exact hlast slot rfl ▸ h
  | cons e before ih =>
    cases h with
    | taken h => exact ih (fun s hs => by cases hs; rfl) h
    | returned h => exact ih hlast h
    | renewed h => exact ih (fun s hs => by cases hs) h

/-- Before the slot `s` is taken, each slot between the next one and `s` is: the slots at the
distances `d` from `k` on behind `s`. -/
theorem taken_before {last : Option Nat} {next s k : Nat} {between after : List SlotEvent}
    (hnext : next = (s + 1 + k) % n) (h : Rotates n last next (between ++ .taken s :: after))
    (hrenewed : .renewed ∉ between) {d : Nat} (hk : k ≤ d) (hd : d + 1 < n) :
    .taken ((s + 1 + d) % n) ∈ between := by
  induction between generalizing last next k with
  | nil =>
    -- `s` is next only if `k + 1` slots are whole rounds
    have hs : s = (s + 1 + k) % n := by
      cases h
      exact hnext
    have hround : 1 + k = n * ((s + 1 + k) / n) := by
      have := Nat.mod_add_div (s + 1 + k) n
      omega
    have hpos : 0 < (s + 1 + k) / n := Nat.pos_of_ne_zero fun h0 => by
      rw [h0, Nat.mul_zero] at hround
      omega
    have := Nat.le_mul_of_pos_right n hpos
    omega
  | cons e between ih =>
    rw [List.mem_cons, not_or] at hrenewed
    cases h with
    | taken h =>
      obtain rfl | hlt := Nat.eq_or_lt_of_le hk
      · exact hnext ▸ List.mem_cons_self ..
      · have hnext' : (next + 1) % n = (s + 1 + (k + 1)) % n := by
          rw [hnext, Nat.mod_add_mod, Nat.add_assoc]
        exact List.mem_cons_of_mem _ (ih hnext' h hrenewed.2 hlt)
    | returned h => exact List.mem_cons_of_mem _ (ih hnext h hrenewed.2 hk)
    | renewed h => exact absurd rfl hrenewed.1

theorem taken_lt {last : Option Nat} {next s : Nat} {log : List SlotEvent}
    (h : Rotates n last next log) (hnext : next < n) (hs : .taken s ∈ log) : s < n := by
  have hpos : 0 < n := Nat.zero_lt_of_lt hnext
  induction h with
  | nil => cases hs
  | taken h ih =>
    obtain heq | hs := List.mem_cons.1 hs
    · cases heq
      exact hnext
    · exact ih (Nat.mod_lt _ hpos) hs
  | returned h ih =>
    obtain heq | hs := List.mem_cons.1 hs
    · cases heq
    · exact ih hnext hs
  | renewed h ih =>
    obtain heq | hs := List.mem_cons.1 hs
    · cases heq
    · exact ih hpos hs

/-- Every other slot is at such a distance. -/
theorem exists_distance {s t : Nat} (hs : s < n) (ht : t < n) (hne : t ≠ s) :
    ∃ d, d + 1 < n ∧ (s + 1 + d) % n = t := by
  obtain hlt | hgt := Nat.lt_or_gt_of_ne hne
  · refine ⟨t + n - s - 1, by omega, ?_⟩
    have hsum : s + 1 + (t + n - s - 1) = t + n := by omega
    rw [hsum, Nat.add_mod_right, Nat.mod_eq_of_lt ht]
  · refine ⟨t - s - 1, by omega, ?_⟩
    have hsum : s + 1 + (t - s - 1) = t := by omega
    rw [hsum, Nat.mod_eq_of_lt ht]

/-- **Reuse.** A slot that was returned is taken again only behind all the others, unless the slots
are renewed in between. -/
theorem reuse {last : Option Nat} {next s t : Nat} {before between after : List SlotEvent}
    (hlast : ∀ s ∈ last, next = (s + 1) % n)
    (h : Rotates n last next (before ++ .returned s :: (between ++ .taken s :: after)))
    (hrenewed : .renewed ∉ between) (ht : t < n) (hne : t ≠ s) : .taken t ∈ between := by
  have hafter := after_returned hlast h
  have hs : s < n := taken_lt hafter (Nat.mod_lt _ (Nat.zero_lt_of_lt ht)) (by simp)
  obtain ⟨d, hd, rfl⟩ := exists_distance hs ht hne
  have hstart : (s + 1) % n = (s + 1 + 0) % n := rfl
  exact taken_before hstart hafter hrenewed (Nat.zero_le d) hd

end Rotates

end PadPlay.Lib
