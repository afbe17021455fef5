import Mathlib.Algebra.Group.Nat.Defs
import Mathlib.Data.Nat.Notation

/-!
# Checked fixed-width arithmetic

Unsigned integers of a fixed width as natural numbers, with operations that fail where the machine
operation overflows, underflows or divides by zero. Each has one rule: it succeeds with the exact
result, and only then (`add_eq_some`, `sub_eq_some`, `mul_eq_some`, `div_eq_some`).
-/

namespace PadPlay.Lib.Checked

/-- `n`, if it fits in `bits` bits. -/
def fit (bits n : Nat) : Option Nat := if n < 2 ^ bits then some n else none

def add (bits a b : Nat) : Option Nat := fit bits (a + b)

def mul (bits a b : Nat) : Option Nat := fit bits (a * b)

def sub (a b : Nat) : Option Nat := if b ≤ a then some (a - b) else none

def div (a b : Nat) : Option Nat := if b = 0 then none else some (a / b)

section
variable {bits a b c : Nat}

theorem fit_eq_some : fit bits a = some c ↔ a < 2 ^ bits ∧ a = c := by
  unfold fit
  split <;> next h => simp [h]

@[simp] theorem add_eq_some : add bits a b = some c ↔ a + b < 2 ^ bits ∧ a + b = c := fit_eq_some

@[simp] theorem mul_eq_some : mul bits a b = some c ↔ a * b < 2 ^ bits ∧ a * b = c := fit_eq_some

@[simp] theorem sub_eq_some : sub a b = some c ↔ b ≤ a ∧ a - b = c := by
  unfold sub
  split <;> next h => simp [h]

@[simp] theorem div_eq_some : div a b = some c ↔ b ≠ 0 ∧ a / b = c := by
  unfold div
  split <;> next h => simp [h]

end

end PadPlay.Lib.Checked
