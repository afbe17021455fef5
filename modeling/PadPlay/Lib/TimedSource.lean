import Mathlib.Data.List.Basic

/-!
# Byte streams with read timeouts

What a reader with a read timeout meets on a connection: bytes that have arrived, and stretches of
silence as long as the timeout. `readExact` takes `n` bytes or fails, and a failure does not give
back the bytes it has already consumed. One lemma says what it did (`readExact_spec`): it consumed
exactly `n` bytes and no silence, or it met a silence, or the end of the stream, before the `n`-th
byte.
-/

namespace PadPlay.Lib

/-- What the next read of a connection meets. -/
inductive Arrival where
  | chunk (bytes : List UInt8)
  | timeout
  deriving DecidableEq, Repr

inductive ReadFault where
  | timeout
  | eof
  deriving DecidableEq, Repr

namespace Arrival

def bytes (s : List Arrival) : List UInt8 :=
  s.flatMap fun
    | .chunk bs => bs
    | .timeout => []

@[simp] theorem bytes_nil : bytes [] = [] := rfl

@[simp] theorem bytes_chunk (bs : List UInt8) (s : List Arrival) :
    bytes (.chunk bs :: s) = bs ++ bytes s := rfl

@[simp] theorem bytes_timeout (s : List Arrival) : bytes (.timeout :: s) = bytes s := rfl

@[simp] theorem bytes_append (s t : List Arrival) : bytes (s ++ t) = bytes s ++ bytes t := by
  simp [bytes]

/-- A bound on the reads a connection can still answer. -/
def weight (s : List Arrival) : Nat := s.length + (bytes s).length

/-- Read exactly `n` bytes; the connection is closed behind its last arrival. -/
def readExact : Nat → List Arrival → Except ReadFault (List UInt8) × List Arrival
  | 0, s => (.ok [], s)
  | _ + 1, [] => (.error .eof, [])
  | _ + 1, .timeout :: s => (.error .timeout, s)
  | n + 1, .chunk bs :: s =>
    if bs.length ≤ n + 1 then
      match readExact (n + 1 - bs.length) s with
      | (.ok cs, s) => (.ok (bs ++ cs), s)
      | (.error e, s) => (.error e, s)
    else (.ok (bs.take (n + 1)), .chunk (bs.drop (n + 1)) :: s)

inductive DidRead (n : Nat) (s : List Arrival) :
    Except ReadFault (List UInt8) × List Arrival → Prop
  | read {cs s'} (hlen : cs.length = n) (hbytes : bytes s = cs ++ bytes s')
      (hweight : weight s' + n ≤ weight s)
      (hsilence : ∀ before after, s' = before ++ .timeout :: after →
        ∃ before', s = before' ++ .timeout :: after ∧ bytes before' = cs ++ bytes before) :
      DidRead n s (.ok cs, s')
  | silence (before : List Arrival) {s'} (hs : s = before ++ .timeout :: s')
      (hlen : (bytes before).length < n) : DidRead n s (.error .timeout, s')
  | ended (hlen : (bytes s).length < n) : DidRead n s (.error .eof, [])

/-- **`readExact`**, by recursion over the arrivals it meets. -/
theorem readExact_spec (n : Nat) (s : List Arrival) : DidRead n s (readExact n s) := by
  fun_induction readExact n s with
  | case1 s =>
    exact .read rfl rfl (Nat.le_refl _) fun before after h => ⟨before, h, rfl⟩
  | case2 n => exact .ended (Nat.succ_pos _)
  | case3 n s => exact .silence [] rfl (Nat.succ_pos _)
  | case4 n bs s hle cs s' hread ih =>
    rw [hread] at ih
    cases ih with
    | read hlen hbytes hweight hsilence =>
      refine .read (by rw [List.length_append]; omega) (by simp [hbytes]) ?_ ?_
      · simp only [weight, bytes_chunk, List.length_cons, List.length_append] at hweight ⊢
        omega
      · intro before after h
        obtain ⟨before', hs, hb⟩ := hsilence before after h
        exact ⟨.chunk bs :: before', by rw [hs]; rfl, by simp [hb]⟩
  | case5 n bs s hle e s' hread ih =>
    rw [hread] at ih
    cases ih with
    | silence before hs hlen =>
      refine .silence (.chunk bs :: before) (by rw [hs]; rfl) ?_
      rw [bytes_chunk, List.length_append]
      omega
    | ended hlen =>
      refine .ended ?_
      rw [bytes_chunk, List.length_append]
      omega
  | case6 n bs s hlt =>
    refine .read ?_ (by simp [← List.append_assoc]) ?_ ?_
    · rw [List.length_take]
      omega
    · simp only [weight, bytes_chunk, List.length_cons, List.length_append, List.length_drop]
      omega
    · intro before after h
      cases before with
      | nil => cases h
      | cons a before =>
        rw [List.cons_append, List.cons.injEq] at h
        obtain ⟨rfl, rfl⟩ := h
        exact ⟨.chunk bs :: before, rfl, by simp [← List.append_assoc]⟩

end Arrival

end PadPlay.Lib
