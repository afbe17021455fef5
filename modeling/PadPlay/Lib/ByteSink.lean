import Mathlib.Data.List.Basic

/-!
# Byte sinks with partial writes

A `ByteSink` is the writing end of a byte stream: the bytes it has accepted so far and how it
answers the write calls to come. A call that gets through takes any positive number of the offered
bytes, or none, or fails; before it gets through it may be interrupted finitely often. One call
appends a prefix of what it was offered (`writeVectored_ok`, `writeVectored_error`); `writeAll`, the
loop every buffered writer is made of, appends a prefix of its buffer, and all of it exactly when it
succeeds (`writeAll_spec`).
-/

namespace PadPlay.Lib

/-- What a write call that gets through does. `accepted n` takes `n + 1` of the offered bytes, or
all of them when there are fewer. -/
inductive WriteOutcome where
  | accepted (n : Nat)
  | zero
  | failed
  deriving DecidableEq, Repr

/-- One answer of a sink: how often the call is interrupted first, and what it does then. -/
structure WriteAnswer where
  interrupts : Nat
  outcome : WriteOutcome
  deriving DecidableEq, Repr

inductive WriteError where
  | interrupted
  | writeZero
  | failed
  deriving DecidableEq, Repr

structure ByteSink where
  wire : List UInt8
  answers : Nat → WriteAnswer

/-- Drop the first `n` bytes of a list of slices, and every slice they cover whole. -/
def advanceSlices : List (List UInt8) → Nat → List (List UInt8)
  | [], _ => []
  | b :: bs, n => if b.length ≤ n then advanceSlices bs (n - b.length) else b.drop n :: bs

theorem advanceSlices_flatten (slices : List (List UInt8)) :
    ∀ n, (advanceSlices slices n).flatten = slices.flatten.drop n := by
  induction slices with
  | nil => intro n; simp [advanceSlices]
  | cons b bs ih =>
    intro n
    simp only [advanceSlices, List.flatten_cons]
    split
    · next h => rw [ih, List.drop_append, List.drop_eq_nil_of_le h, List.nil_append]
    · next h => rw [List.flatten_cons, List.drop_append_of_le_length (by omega)]

theorem advanceSlices_ne_nil (slices : List (List UInt8)) :
    ∀ n, advanceSlices slices n ≠ [] → (advanceSlices slices n).flatten ≠ [] := by
  induction slices with
  | nil => intro n h; exact absurd rfl h
  | cons b bs ih =>
    intro n
    simp only [advanceSlices]
    split
    · exact ih _
    · next h =>
      intro _ hnil
      rw [List.flatten_cons, List.append_eq_nil_iff, List.drop_eq_nil_iff] at hnil
      exact h hnil.1

namespace ByteSink

def next (s : ByteSink) (written : List UInt8) : ByteSink where
  wire := s.wire ++ written
  answers := fun k => s.answers (k + 1)

/-- The sink after its next answer interrupted one call. -/
def interrupt (s : ByteSink) : ByteSink where
  wire := s.wire
  answers := fun k =>
    if k = 0 then { s.answers 0 with interrupts := (s.answers 0).interrupts - 1 } else s.answers k

def writeVectored (s : ByteSink) (slices : List (List UInt8)) : Except WriteError Nat × ByteSink :=
  if (s.answers 0).interrupts ≠ 0 then (.error .interrupted, s.interrupt)
  else
    match (s.answers 0).outcome with
    | .accepted n =>
      let written := slices.flatten.take (n + 1)
      (.ok written.length, s.next written)
    | .zero => (.ok 0, s.next [])
    | .failed => (.error .failed, s.next [])

/-- A successful call appends a prefix of what it was offered. -/
theorem writeVectored_ok {s s' : ByteSink} {slices : List (List UInt8)} {n : Nat}
    (h : s.writeVectored slices = (.ok n, s')) :
    n ≤ slices.flatten.length ∧ s'.wire = s.wire ++ slices.flatten.take n := by
  unfold writeVectored at h
  split at h
  · cases h
  · split at h
    · simp only [Prod.mk.injEq, Except.ok.injEq] at h
      obtain ⟨rfl, rfl⟩ := h
      refine ⟨by simp only [List.length_take]; omega, ?_⟩
      simp [next, List.take_eq_take_iff]
    · simp only [Prod.mk.injEq, Except.ok.injEq] at h
      obtain ⟨rfl, rfl⟩ := h
      simp [next]
    · cases h

theorem writeVectored_error {s s' : ByteSink} {slices : List (List UInt8)} {e : WriteError}
    (h : s.writeVectored slices = (.error e, s')) : s'.wire = s.wire := by
  unfold writeVectored at h
  split at h
  · cases h; rfl
  · split at h
    · cases h
    · cases h
    · cases h; simp [next]

theorem writeVectored_interrupted {s s' : ByteSink} {slices : List (List UInt8)}
    (h : s.writeVectored slices = (.error .interrupted, s')) :
    (s'.answers 0).interrupts < (s.answers 0).interrupts := by
  unfold writeVectored at h
  split at h
  · next hne => cases h; simp only [interrupt, ite_true]; omega
  · split at h <;> cases h

/-- Write a whole buffer: retry interrupted calls, give up on any other error or on a call that
takes nothing. -/
def writeAll (s : ByteSink) (buf : List UInt8) : Except WriteError Unit × ByteSink :=
  if buf = [] then (.ok (), s)
  else
    match _hwrite : s.writeVectored [buf] with
    | (.error .interrupted, s') => s'.writeAll buf
    | (.error e, s') => (.error e, s')
    | (.ok n, s') => if n = 0 then (.error .writeZero, s') else s'.writeAll (buf.drop n)
termination_by (buf.length, (s.answers 0).interrupts)
decreasing_by
  · exact Prod.Lex.right _ (writeVectored_interrupted _hwrite)
  · have := (writeVectored_ok _hwrite).1
    refine Prod.Lex.left _ _ ?_
    simp only [List.flatten_cons, List.flatten_nil, List.append_nil] at this
    rw [List.length_drop]
    omega

/-- **`writeAll`** appends a prefix of the buffer, and the whole buffer exactly when it succeeds. -/
theorem writeAll_spec (s : ByteSink) (buf : List UInt8) :
    ∃ k, k ≤ buf.length ∧ (s.writeAll buf).2.wire = s.wire ++ buf.take k ∧
      ((s.writeAll buf).1 = .ok () ↔ k = buf.length) := by
  fun_induction writeAll s buf with
  | case1 s => exact ⟨0, by simp⟩
  | case2 s buf hne s' hwrite ih => rwa [writeVectored_error hwrite] at ih
  | case3 s buf hne e he s' hwrite =>
    refine ⟨0, by simp, by simp [writeVectored_error hwrite], ?_⟩
    simpa [eq_comm] using hne
  | case4 s buf hne s' hwrite =>
    refine ⟨0, by simp, by simp [(writeVectored_ok hwrite).2], ?_⟩
    simpa [eq_comm] using hne
  | case5 s buf hne n s' hwrite hn ih =>
    obtain ⟨k, hk, hwire, hiff⟩ := ih
    obtain ⟨hle, hw⟩ := writeVectored_ok hwrite
    simp only [List.flatten_cons, List.flatten_nil, List.append_nil] at hle hw
    rw [List.length_drop] at hk hiff
    refine ⟨n + k, by omega, ?_, hiff.trans (by omega)⟩
    rw [hwire, hw, List.append_assoc, List.take_add]

/-! ## Vectored writes -/

/-- The loop of `writeAllVectored`: the slices that are left are offered until none is. -/
def writeSlices (s : ByteSink) (slices : List (List UInt8)) : Except WriteError Unit × ByteSink :=
  if slices = [] then (.ok (), s)
  else
    match _hwrite : s.writeVectored slices with
    | (.error .interrupted, s') => s'.writeSlices slices
    | (.error e, s') => (.error e, s')
    | (.ok n, s') =>
      if n = 0 then (.error .writeZero, s') else s'.writeSlices (advanceSlices slices n)
termination_by (slices.flatten.length, (s.answers 0).interrupts)
decreasing_by
  · exact Prod.Lex.right _ (writeVectored_interrupted _hwrite)
  · have := (writeVectored_ok _hwrite).1
    refine Prod.Lex.left _ _ ?_
    rw [advanceSlices_flatten, List.length_drop]
    omega

/-- Write all of several slices: like `writeAll`, with slices that hold nothing passed over. -/
def writeAllVectored (s : ByteSink) (slices : List (List UInt8)) :
    Except WriteError Unit × ByteSink :=
  s.writeSlices (advanceSlices slices 0)

section
variable {s s' : ByteSink} {slices : List (List UInt8)}

theorem writeSlices_error {e : WriteError} (hne : slices ≠ [])
    (h : s.writeVectored slices = (.error e, s')) (he : e ≠ .interrupted) :
    s.writeSlices slices = (.error e, s') := by
  rw [writeSlices, if_neg hne]
  split
  · next hwrite =>
    rw [h] at hwrite
    cases hwrite
    exact absurd rfl he
  · next hwrite =>
    rw [h] at hwrite
    cases hwrite
    rfl
  · next hwrite =>
    rw [h] at hwrite
    cases hwrite

theorem writeSlices_ok {n : Nat} (hne : slices ≠ []) (h : s.writeVectored slices = (.ok n, s')) :
    s.writeSlices slices =
      if n = 0 then (.error .writeZero, s') else s'.writeSlices (advanceSlices slices n) := by
  rw [writeSlices, if_neg hne]
  split
  · next hwrite =>
    rw [h] at hwrite
    cases hwrite
  · next hwrite =>
    rw [h] at hwrite
    cases hwrite
  · next hwrite =>
    rw [h] at hwrite
    cases hwrite
    rfl

end

/-- An interrupted call is never what `writeAllVectored` ends with. -/
theorem writeSlices_not_interrupted (s : ByteSink) (slices : List (List UInt8)) :
    (s.writeSlices slices).1 ≠ .error .interrupted := by
  fun_induction writeSlices s slices with
  | case1 s => nofun
  | case2 s slices hne s' hwrite ih => exact ih
  | case3 s slices hne e s' hother hwrite =>
    intro hinterrupted
    cases hinterrupted
    exact hother rfl
  | case4 s slices hne s' hwrite => nofun
  | case5 s slices hne n s' hwrite hn ih => exact ih

/-- No call is interrupted until `n` bytes are taken, or a call takes none or fails. -/
def Undisturbed (n : Nat) (answers : Nat → WriteAnswer) : Prop :=
  if _hn : n = 0 then True
  else
    (answers 0).interrupts = 0 ∧
      match (answers 0).outcome with
      | .accepted k => Undisturbed (n - (k + 1)) fun i => answers (i + 1)
      | .zero | .failed => True
termination_by n

end ByteSink

end PadPlay.Lib
