import Mathlib.Data.List.Infix
import PadPlay.Lib.BigEndian
import PadPlay.Lib.ByteSource

/-!
# What the device code stands on

The parts of the Java and Android libraries the app calls: `DataInputStream` over a stream that
may return short reads, `ByteBuffer.put`, and the answers a `MediaCodec` gives. Kotlin's `Int` and
`Long` are `Int32` and `Int64`.
-/

namespace PadPlay.Device

open PadPlay.Lib

/-- The exceptions that can leave the functions modelled here. `socket` is an `IOException` raised
by the socket itself. -/
inductive Throwable where
  | io (message : String)
  | eof (message : Option String)
  | socket
  | bufferOverflow
  | indexOutOfBounds
  | illegalState
  deriving DecidableEq, Repr

/-! ## `DataInputStream` -/

abbrev DataInput (α : Type) := StateT ByteSource (Except Throwable) α

def ReadError.throwable : ReadError → Throwable
  | .eof => .eof none
  | .io => .socket

namespace DataInput

def readBytes (n : Nat) : DataInput (List UInt8) := fun input =>
  match input.readFully n with
  | .ok r => .ok r
  | .error e => .error (ReadError.throwable e)

def readInt : DataInput Int32 := do return Int32.ofNat (ofBE (← readBytes 4))

def readLong : DataInput Int64 := do return Int64.ofNat (ofBE (← readBytes 8))

def readUnsignedShort : DataInput Int32 := do return Int32.ofNat (ofBE (← readBytes 2))

def readUnsignedByte : DataInput Int32 := do return Int32.ofNat (ofBE (← readBytes 1))

def skipBytes (n : Nat) : DataInput Unit := fun input =>
  match input.skipBytes n with
  | .ok input => .ok ((), input)
  | .error e => .error (ReadError.throwable e)

/-- `if (!condition) throw e`. -/
def require (condition : Prop) [Decidable condition] (e : Throwable) : DataInput Unit :=
  if condition then pure () else throw e

/-! ### Reading a known string -/

/-- `m` reads the bytes `bs` as `a`, whatever follows them. -/
def Parses {α : Type} (m : DataInput α) (bs : List UInt8) (a : α) : Prop :=
  ∀ s t, s.bytes = bs ++ t → ∃ s', m.run s = .ok (a, s') ∧ s.Consumed bs.length s'

theorem Parses.unique {α : Type} {m : DataInput α} {bs : List UInt8} {a a' : α}
    (h : Parses m bs a) (h' : Parses m bs a') : a = a' := by
  let input : ByteSource := ⟨bs, fun _ => 0, .closed⟩
  obtain ⟨rest, hrun, -⟩ := h input [] (List.append_nil bs).symm
  obtain ⟨rest', hrun', -⟩ := h' input [] (List.append_nil bs).symm
  rw [hrun] at hrun'
  cases hrun'
  rfl

theorem Parses.pure {α : Type} (a : α) : Parses (pure a) [] a :=
  fun s _ _ => ⟨s, rfl, .refl s⟩

theorem Parses.bind {α β : Type} {m : DataInput α} {f : α → DataInput β} {bs bs' : List UInt8}
    {a : α} {b : β} (hm : Parses m bs a) (hf : Parses (f a) bs' b) :
    Parses (m >>= f) (bs ++ bs') b := by
  intro s t hs
  obtain ⟨s', hs', hk⟩ := hm s (bs' ++ t) (by rw [hs, List.append_assoc])
  obtain ⟨s'', hs'', hn⟩ := hf s' t (by rw [hk.bytes, hs, List.append_assoc, List.drop_left])
  refine ⟨s'', ?_, ?_⟩
  · rw [StateT.run_bind, hs']
    exact hs''
  · rw [List.length_append]
    exact hk.trans hn

theorem parses_require {c : Prop} [Decidable c] (hc : c) (e : Throwable) :
    Parses (require c e) [] () := by
  rw [require, if_pos hc]
  exact .pure ()

theorem parses_readBytes (bs : List UInt8) : Parses (readBytes bs.length) bs bs := by
  intro s t hs
  have hlen : bs.length ≤ s.bytes.length := by simp [hs]
  obtain ⟨s', hs', hk⟩ := ByteSource.readFully_ok hlen
  rw [hs, List.take_left] at hs'
  exact ⟨s', by simp [readBytes, StateT.run, hs'], hk⟩

theorem parses_skipBytes (bs : List UInt8) : Parses (skipBytes bs.length) bs () := by
  intro s t hs
  obtain ⟨s', hs', hk⟩ := ByteSource.skipBytes_ok (s := s) (n := bs.length) (by simp [hs])
  exact ⟨s', by simp [skipBytes, StateT.run, hs'], hk⟩

theorem parses_field {α : Type} (n : Nat) (g : List UInt8 → α) {v : Nat} (h : v < 256 ^ n)
    {a : α} (ha : ∀ bs, ofBE bs = v → g bs = a) :
    Parses (do return g (← readBytes n)) (toBE n v) a := by
  have hb := (parses_readBytes (toBE n v)).bind (f := fun bs => pure (g bs))
    (.pure (g (toBE n v)))
  rwa [toBE_length, List.append_nil, ha _ (ofBE_toBE_of_lt h)] at hb

theorem parses_readInt {v : Nat} (h : v < 256 ^ 4) :
    Parses readInt (toBE 4 v) (Int32.ofNat v) :=
  parses_field 4 _ h fun _ hv => by rw [hv]

theorem parses_readLong {v : Nat} (h : v < 256 ^ 8) :
    Parses readLong (toBE 8 v) (Int64.ofNat v) :=
  parses_field 8 _ h fun _ hv => by rw [hv]

theorem parses_readUnsignedShort {v : Nat} (h : v < 256 ^ 2) :
    Parses readUnsignedShort (toBE 2 v) (Int32.ofNat v) :=
  parses_field 2 _ h fun _ hv => by rw [hv]

theorem parses_readUnsignedByte (b : UInt8) :
    Parses readUnsignedByte [b] (Int32.ofNat b.toNat) := by
  have hb : toBE 1 b.toNat = [b] := by simp [toBE]
  rw [← hb]
  exact parses_field 1 _ (by simpa using b.toNat_lt) fun _ hv => by rw [hv]

/-! ### Reading a truncated stream -/

/-- What `m` returns from a truncated stream it also returns from a longer, closed one, and it
consumes the same bytes of both, unless it came to the end of the truncated one. -/
def Stable {α : Type} (m : DataInput α) : Prop :=
  ∀ s₁ s₂ a s₁', s₁.bytes <+: s₂.bytes → s₂.fate = .closed → m.run s₁ = .ok (a, s₁') →
    ∃ s₂', m.run s₂ = .ok (a, s₂') ∧ s₂'.fate = .closed ∧
      (s₁'.bytes = [] ∨
        ∃ n, n ≤ s₁.bytes.length ∧ s₁.Consumed n s₁' ∧ s₂.Consumed n s₂')

theorem Stable.pure {α : Type} (a : α) : Stable (pure a) := by
  intro s₁ s₂ a' s₁' _ hclosed h
  cases h
  exact ⟨s₂, rfl, hclosed, .inr ⟨0, Nat.zero_le _, .refl _, .refl _⟩⟩

theorem Stable.throw {α : Type} (e : Throwable) : Stable (throw e : DataInput α) := by
  intro s₁ s₂ a s₁' _ _ h
  cases h

theorem Stable.bind {α β : Type} {m : DataInput α} {f : α → DataInput β} (hm : Stable m)
    (hf : ∀ a, Stable (f a)) : Stable (m >>= f) := by
  intro s₁ s₂ b s₁'' hpre hclosed h
  rw [StateT.run_bind] at h
  cases hrun : m.run s₁ with
  | error e => rw [hrun] at h; cases h
  | ok r =>
    obtain ⟨a, s₁'⟩ := r
    rw [hrun] at h
    obtain ⟨s₂', hs₂', hclosed', hcase⟩ := hm s₁ s₂ a s₁' hpre hclosed hrun
    have hpre' : s₁'.bytes <+: s₂'.bytes := by
      rcases hcase with hnil | ⟨n, -, h1, h2⟩
      · rw [hnil]; exact List.nil_prefix
      · rw [h1.bytes, h2.bytes]; exact hpre.drop n
    obtain ⟨s₂'', hs₂'', hclosed'', hcase'⟩ := hf a s₁' s₂' b s₁'' hpre' hclosed' h
    refine ⟨s₂'', by rw [StateT.run_bind, hs₂']; exact hs₂'', hclosed'', ?_⟩
    rcases hcase' with hnil | ⟨n', hle', h1', h2'⟩
    · exact .inl hnil
    · rcases hcase with hnil | ⟨n, hle, h1, h2⟩
      · exact .inl (by rw [h1'.bytes, hnil, List.drop_nil])
      · rw [h1.bytes, List.length_drop] at hle'
        exact .inr ⟨n + n', by omega, h1.trans h1', h2.trans h2'⟩

theorem Stable.ite {α : Type} {c : Prop} [Decidable c] {m m' : DataInput α} (hm : Stable m)
    (hm' : Stable m') : Stable (if c then m else m') := by
  split
  · exact hm
  · exact hm'

theorem stable_require (c : Prop) [Decidable c] (e : Throwable) : Stable (require c e) :=
  .ite (.pure ()) (.throw e)

theorem stable_readBytes (n : Nat) : Stable (readBytes n) := by
  intro s₁ s₂ bs s₁' hpre hclosed h
  by_cases hn : n ≤ s₁.bytes.length
  · obtain ⟨r, hr, hk⟩ := ByteSource.readFully_ok hn
    obtain ⟨s₂', hs₂', hk'⟩ := ByteSource.readFully_ok (Nat.le_trans hn hpre.length_le)
    simp only [readBytes, StateT.run, hr, Except.ok.injEq, Prod.mk.injEq] at h
    obtain ⟨rfl, rfl⟩ := h
    refine ⟨s₂', ?_, hk'.fate.trans hclosed, .inr ⟨n, hn, hk, hk'⟩⟩
    obtain ⟨t, ht⟩ := hpre
    simp [readBytes, StateT.run, hs₂', ← ht, List.take_append_of_le_length hn]
  · rw [Nat.not_le] at hn
    simp [readBytes, StateT.run, ByteSource.readFully_error hn] at h

/-- Skipping is where a truncated stream can end unnoticed. -/
theorem stable_skipBytes (n : Nat) : Stable (skipBytes n) := by
  intro s₁ s₂ u s₁' hpre hclosed h
  by_cases hn : n ≤ s₁.bytes.length
  · obtain ⟨r, hr, hk⟩ := ByteSource.skipBytes_ok hn
    obtain ⟨s₂', hs₂', hk'⟩ := ByteSource.skipBytes_ok (Nat.le_trans hn hpre.length_le)
    simp only [skipBytes, StateT.run, hr, Except.ok.injEq, Prod.mk.injEq] at h
    obtain ⟨-, rfl⟩ := h
    exact ⟨s₂', by simp [skipBytes, StateT.run, hs₂'], hk'.fate.trans hclosed,
      .inr ⟨n, hn, hk, hk'⟩⟩
  · rw [Nat.not_le] at hn
    have hnil : s₁'.bytes = [] := by
      rcases ByteSource.skipBytes_short hn with ⟨-, r, hr, hnil, -⟩ | ⟨-, hr⟩
      · simp only [skipBytes, StateT.run, hr, Except.ok.injEq, Prod.mk.injEq] at h
        rw [← h.2, hnil]
      · simp [skipBytes, StateT.run, hr] at h
    by_cases hn₂ : n ≤ s₂.bytes.length
    · obtain ⟨s₂', hs₂', hk'⟩ := ByteSource.skipBytes_ok hn₂
      exact ⟨s₂', by simp [skipBytes, StateT.run, hs₂'], hk'.fate.trans hclosed, .inl hnil⟩
    · rw [Nat.not_le] at hn₂
      rcases ByteSource.skipBytes_short hn₂ with ⟨-, s₂', hs₂', -, hfate⟩ | ⟨hbroken, -⟩
      · exact ⟨s₂', by simp [skipBytes, StateT.run, hs₂'], hfate, .inl hnil⟩
      · rw [hclosed] at hbroken; cases hbroken

theorem stable_readInt : Stable readInt := (stable_readBytes 4).bind fun _ => .pure _

theorem stable_readLong : Stable readLong := (stable_readBytes 8).bind fun _ => .pure _

theorem stable_readUnsignedShort : Stable readUnsignedShort :=
  (stable_readBytes 2).bind fun _ => .pure _

theorem stable_readUnsignedByte : Stable readUnsignedByte :=
  (stable_readBytes 1).bind fun _ => .pure _

end DataInput

/-! ## Buffers and codecs -/

/-- `ByteBuffer.put(src, 0, length)` on a cleared buffer of the given capacity. -/
def putBuffer (capacity : Nat) (src : List UInt8) (length : Nat) :
    Except Throwable (List UInt8) :=
  if src.length < length then .error .indexOutOfBounds
  else if capacity < length then .error .bufferOverflow
  else .ok (src.take length)

inductive BufferAnswer where
  | null
  | throws
  | buffer (capacity : Nat)
  deriving DecidableEq, Repr

structure AccessUnit where
  payload : List UInt8
  presentationTimeUs : Int64
  flags : Int32
  deriving DecidableEq, Repr

end PadPlay.Device
