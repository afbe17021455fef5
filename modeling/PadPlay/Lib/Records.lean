import Mathlib.Data.List.Induction

/-!
# Streams of records of one size

A stream of records of `k` bytes each, as the list of the records the bytes belong to. What is read
of it in pieces is a prefix; a prefix of whole records holds the first records, and ends with a byte
of the last of them.
-/

namespace PadPlay.Lib

variable {α : Type}

/-- The record each byte belongs to. -/
def recordStream (k : Nat) (records : List α) : List α := records.flatMap (List.replicate k)

@[simp] theorem recordStream_nil (k : Nat) : recordStream k ([] : List α) = [] := rfl

@[simp] theorem recordStream_cons (k : Nat) (a : α) (records : List α) :
    recordStream k (a :: records) = List.replicate k a ++ recordStream k records := rfl

@[simp] theorem recordStream_append (k : Nat) (l₁ l₂ : List α) :
    recordStream k (l₁ ++ l₂) = recordStream k l₁ ++ recordStream k l₂ := List.flatMap_append

@[simp] theorem recordStream_length (k : Nat) (records : List α) :
    (recordStream k records).length = k * records.length := by
  induction records with
  | nil => rfl
  | cons a records ih => simp [ih, Nat.mul_succ, Nat.add_comm]

theorem recordStream_take (k n : Nat) (records : List α) :
    (recordStream k records).take (k * n) = recordStream k (records.take n) := by
  induction records generalizing n with
  | nil => simp
  | cons a records ih =>
    cases n with
    | zero => simp
    | succ n =>
      have hsplit : k * (n + 1) = (List.replicate k a).length + k * n := by
        rw [List.length_replicate, Nat.mul_succ, Nat.add_comm]
      rw [recordStream_cons, hsplit, List.take_length_add_append, ih, List.take_succ_cons,
        recordStream_cons]

theorem recordStream_getLast? {k : Nat} (hk : 0 < k) (records : List α) :
    (recordStream k records).getLast? = records.getLast? := by
  induction records using List.reverseRecOn with
  | nil => rfl
  | append_singleton records a =>
    simp [List.getLast?_append, List.getLast?_replicate, Nat.ne_of_gt hk]

/-- **A prefix of `n + 1` whole records** ends with a byte of record `n`. -/
theorem recordStream_prefix {k n : Nat} (hk : 0 < k) {records stream : List α}
    (hpre : stream <+: recordStream k records) (hlen : stream.length = k * (n + 1)) :
    stream.getLast? = records[n]? := by
  have hbound : n + 1 ≤ records.length := by
    have hle := hpre.length_le
    rw [hlen, recordStream_length] at hle
    exact Nat.le_of_mul_le_mul_left hle hk
  rw [List.prefix_iff_eq_take.1 hpre, hlen, recordStream_take, recordStream_getLast? hk,
    List.getLast?_eq_getElem?, List.length_take, Nat.min_eq_left hbound, Nat.add_sub_cancel,
    List.getElem?_take_of_lt (Nat.lt_succ_self n)]

end PadPlay.Lib
