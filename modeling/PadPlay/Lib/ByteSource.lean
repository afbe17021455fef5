import Mathlib.Data.List.Basic

/-!
# Byte streams with short reads

A `ByteSource` is the reading end of a byte stream: the bytes that will still arrive, how short each
read comes back, and how the stream breaks off after its last byte. A read of `len > 0` bytes
returns any positive number of them that are there, so code that reads has to loop. The two loops
every reader is made of are specified once: `readFully` consumes exactly `len` bytes or fails
(`readFully_ok`, `readFully_error`), `skipBytes` consumes `n` bytes, or what is left when the
stream ends early (`skipBytes_ok`, `skipBytes_short`). What they return does not depend on `cuts`.
-/

namespace PadPlay.Lib

/-- How a stream breaks off: an orderly end, or a failing read. -/
inductive Fate where
  | closed
  | broken
  deriving DecidableEq, Repr

inductive ReadError where
  | eof
  | io
  deriving DecidableEq, Repr

def Fate.error : Fate → ReadError
  | .closed => .eof
  | .broken => .io

/-- The reading end of a byte stream. `cuts k` bounds what the `k`-th read from now returns. -/
structure ByteSource where
  bytes : List UInt8
  cuts : Nat → Nat
  fate : Fate

inductive ReadAnswer where
  | data (chunk : List UInt8) (rest : ByteSource)
  | eof
  | failed

namespace ByteSource

/-- `s'` is `s` with its first `n` bytes consumed. -/
structure Consumed (s : ByteSource) (n : Nat) (s' : ByteSource) : Prop where
  bytes : s'.bytes = s.bytes.drop n
  fate : s'.fate = s.fate

theorem Consumed.refl (s : ByteSource) : Consumed s 0 s := ⟨rfl, rfl⟩

theorem Consumed.trans {s s' s'' : ByteSource} {m n : Nat} (h : Consumed s m s')
    (h' : Consumed s' n s'') : Consumed s (m + n) s'' :=
  ⟨by rw [h'.bytes, h.bytes, List.drop_drop], h'.fate.trans h.fate⟩

def advance (s : ByteSource) (n : Nat) : ByteSource where
  bytes := s.bytes.drop n
  cuts := fun k => s.cuts (k + 1)
  fate := s.fate

/-- One read of at most `len` bytes: at least one byte when there are any and `len > 0`. -/
def read (s : ByteSource) (len : Nat) : ReadAnswer :=
  if s.bytes = [] then
    match s.fate with
    | .closed => .eof
    | .broken => .failed
  else
    let n := min (s.cuts 0 + 1) len
    .data (s.bytes.take n) (s.advance n)

/-- What a read returns is a prefix of what is left, nonempty when bytes were asked for. -/
theorem read_data {s : ByteSource} {len : Nat} {chunk : List UInt8} {rest : ByteSource}
    (h : s.read len = .data chunk rest) :
    chunk = s.bytes.take chunk.length ∧ chunk.length ≤ len ∧ (0 < len → 0 < chunk.length) ∧
      Consumed s chunk.length rest := by
  unfold read at h
  split at h
  · cases hf : s.fate <;> simp [hf] at h
  · next hne =>
    simp only [ReadAnswer.data.injEq] at h
    obtain ⟨rfl, rfl⟩ := h
    have hpos : 0 < s.bytes.length := List.length_pos_iff.2 hne
    refine ⟨?_, ?_, ?_, ?_, rfl⟩
    · simp only [List.length_take, List.take_eq_take_iff]; omega
    · simp only [List.length_take]; omega
    · intro hlen; simp only [List.length_take]; omega
    · simp only [advance, List.length_take, List.drop_eq_drop_iff]
      omega

theorem read_eof {s : ByteSource} {len : Nat} (h : s.read len = .eof) :
    s.bytes = [] ∧ s.fate = .closed := by
  unfold read at h
  split at h
  · next hnil => cases hf : s.fate <;> simp [hf] at h; exact ⟨hnil, rfl⟩
  · cases h

theorem read_failed {s : ByteSource} {len : Nat} (h : s.read len = .failed) :
    s.bytes = [] ∧ s.fate = .broken := by
  unfold read at h
  split at h
  · next hnil => cases hf : s.fate <;> simp [hf] at h; exact ⟨hnil, rfl⟩
  · cases h

def readFully (s : ByteSource) (len : Nat) : Except ReadError (List UInt8 × ByteSource) :=
  if _hlen : len = 0 then .ok ([], s)
  else
    match _hread : s.read len with
    | .eof => .error .eof
    | .failed => .error .io
    | .data chunk rest => do
      let (more, rest) ← rest.readFully (len - chunk.length)
      return (chunk ++ more, rest)
termination_by len
decreasing_by
  have := (read_data _hread).2.2.1 (Nat.pos_of_ne_zero _hlen)
  omega

/-- Skip `n` bytes; an orderly end of the stream just stops the skipping early. -/
def skipBytes (s : ByteSource) (n : Nat) : Except ReadError ByteSource :=
  if _hn : n = 0 then .ok s
  else
    match _hread : s.read n with
    | .eof => .ok s
    | .failed => .error .io
    | .data chunk rest => rest.skipBytes (n - chunk.length)
termination_by n
decreasing_by
  have := (read_data _hread).2.2.1 (Nat.pos_of_ne_zero _hn)
  omega

/-- **`readFully` with enough bytes left** returns exactly the next `len` of them. -/
theorem readFully_ok : ∀ {len : Nat} {s : ByteSource}, len ≤ s.bytes.length →
    ∃ s', s.readFully len = .ok (s.bytes.take len, s') ∧ Consumed s len s' := by
  intro len
  induction len using Nat.strongRecOn with
  | _ len ih =>
    intro s hlen
    rw [readFully]
    split
    · next h0 => subst h0; exact ⟨s, by simp, .refl s⟩
    · next h0 =>
      have hne : s.bytes ≠ [] := by
        rintro h; rw [h] at hlen; exact h0 (Nat.le_zero.1 hlen)
      split
      · next hread => exact absurd (read_eof hread).1 hne
      · next hread => exact absurd (read_failed hread).1 hne
      · next chunk rest hread =>
        obtain ⟨hchunk, hle, hpos, hrest⟩ := read_data hread
        have hpos := hpos (Nat.pos_of_ne_zero h0)
        obtain ⟨s', hs', hcons⟩ := ih (len - chunk.length) (by omega) (s := rest)
          (by rw [hrest.bytes, List.length_drop]; omega)
        refine ⟨s', ?_, ?_⟩
        · rw [hs']
          simp only [bind, Except.bind, pure, Except.pure, Except.ok.injEq, Prod.mk.injEq, and_true]
          rw [hrest.bytes]
          conv_lhs => rw [hchunk]
          rw [List.length_take, Nat.min_eq_left (by omega), ← List.take_add]
          congr 1
          omega
        · have := hrest.trans hcons
          rwa [Nat.add_sub_cancel' hle] at this

/-- **`readFully` past the end** fails with the stream's own error. -/
theorem readFully_error : ∀ {len : Nat} {s : ByteSource}, s.bytes.length < len →
    s.readFully len = .error s.fate.error := by
  intro len
  induction len using Nat.strongRecOn with
  | _ len ih =>
    intro s hlen
    rw [readFully]
    split
    · omega
    · next h0 =>
      split
      · next hread => rw [(read_eof hread).2]; rfl
      · next hread => rw [(read_failed hread).2]; rfl
      · next chunk rest hread =>
        obtain ⟨hchunk, hle, hpos, hrest⟩ := read_data hread
        have hpos := hpos (Nat.pos_of_ne_zero h0)
        have hin : chunk.length ≤ s.bytes.length := by
          rw [hchunk, List.length_take]; exact Nat.min_le_right ..
        rw [ih (len - chunk.length) (by omega) (by rw [hrest.bytes, List.length_drop]; omega),
          hrest.fate]
        rfl

/-- **`skipBytes` with enough bytes left** drops exactly `n` of them. -/
theorem skipBytes_ok : ∀ {n : Nat} {s : ByteSource}, n ≤ s.bytes.length →
    ∃ s', s.skipBytes n = .ok s' ∧ Consumed s n s' := by
  intro n
  induction n using Nat.strongRecOn with
  | _ n ih =>
    intro s hn
    rw [skipBytes]
    split
    · next h0 => subst h0; exact ⟨s, rfl, .refl s⟩
    · next h0 =>
      have hne : s.bytes ≠ [] := by
        rintro h; rw [h] at hn; exact h0 (Nat.le_zero.1 hn)
      split
      · next hread => exact absurd (read_eof hread).1 hne
      · next hread => exact absurd (read_failed hread).1 hne
      · next chunk rest hread =>
        obtain ⟨-, hle, hpos, hrest⟩ := read_data hread
        have hpos := hpos (Nat.pos_of_ne_zero h0)
        obtain ⟨s', hs', hcons⟩ := ih (n - chunk.length) (by omega) (s := rest)
          (by rw [hrest.bytes, List.length_drop]; omega)
        have := hrest.trans hcons
        rw [Nat.add_sub_cancel' hle] at this
        exact ⟨s', hs', this⟩

/-- **`skipBytes` past the end** empties a closed stream and fails on a broken one. -/
theorem skipBytes_short : ∀ {n : Nat} {s : ByteSource}, s.bytes.length < n →
    (s.fate = .closed ∧ ∃ s', s.skipBytes n = .ok s' ∧ s'.bytes = [] ∧ s'.fate = .closed) ∨
      (s.fate = .broken ∧ s.skipBytes n = .error .io) := by
  intro n
  induction n using Nat.strongRecOn with
  | _ n ih =>
    intro s hn
    rw [skipBytes]
    split
    · omega
    · next h0 =>
      split
      · next hread =>
        obtain ⟨hnil, hfate⟩ := read_eof hread
        exact .inl ⟨hfate, s, rfl, hnil, hfate⟩
      · next hread => exact .inr ⟨(read_failed hread).2, rfl⟩
      · next chunk rest hread =>
        obtain ⟨hchunk, hle, hpos, hrest⟩ := read_data hread
        have hpos := hpos (Nat.pos_of_ne_zero h0)
        have hin : chunk.length ≤ s.bytes.length := by
          rw [hchunk, List.length_take]; exact Nat.min_le_right ..
        have := ih (n - chunk.length) (by omega) (s := rest)
          (by rw [hrest.bytes, List.length_drop]; omega)
        rwa [hrest.fate] at this

end ByteSource

end PadPlay.Lib
