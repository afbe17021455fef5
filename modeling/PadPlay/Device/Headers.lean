import PadPlay.Device.Reading

/-!
# Headers in arbitrary bytes

`Reads m s k P a k'` says exactly what `m` does after `k` bytes of a stream: it succeeds just when
`P` holds, and then returns `a` with `k'` bytes consumed. Along a `do` block the conditions are
conjoined (`Reads.bind`), so that a header reader is characterised by what it asks of the bytes
(`reads_readFrameHeader`, `reads_readStreamHeader`), whoever wrote them.
-/

namespace PadPlay.Device

open PadPlay.Lib

namespace DataInput

/-- After `k` bytes of `s`, `m` succeeds just when `P` holds, and then returns `a` after `k'`. -/
structure Reads {α : Type} (m : DataInput α) (s : ByteSource) (k : Nat) (P : Prop) (a : α)
    (k' : Nat) : Prop where
  ok : P → ∀ t, s.Consumed k t → ∃ t', m.run t = .ok (a, t') ∧ s.Consumed k' t'
  inv : ∀ t, s.Consumed k t → ∀ b t', m.run t = .ok (b, t') → P ∧ b = a ∧ s.Consumed k' t'

section
variable {α β : Type} {m : DataInput α} {s : ByteSource} {k k' : Nat} {P : Prop} {a : α}

theorem bind_ok {f : α → DataInput β} {t t'' : ByteSource} {b : β}
    (h : (m >>= f).run t = .ok (b, t'')) :
    ∃ a t', m.run t = .ok (a, t') ∧ (f a).run t' = .ok (b, t'') := by
  rw [StateT.run_bind] at h
  cases hrun : m.run t with
  | error e => rw [hrun] at h; cases h
  | ok r =>
    rw [hrun] at h
    exact ⟨r.1, r.2, rfl, h⟩

theorem Reads.pure (a : α) : Reads (pure a) s k True a k := by
  constructor
  · intro _ t ht
    exact ⟨t, rfl, ht⟩
  · intro t ht b t' h
    cases h
    exact ⟨trivial, rfl, ht⟩

theorem Reads.bind {f : α → DataInput β} {k'' : Nat} {Q : Prop} {b : β}
    (hm : Reads m s k P a k') (hf : Reads (f a) s k' Q b k'') :
    Reads (m >>= f) s k (P ∧ Q) b k'' := by
  constructor
  · intro ⟨hP, hQ⟩ t ht
    obtain ⟨t', hrun, ht'⟩ := hm.ok hP t ht
    obtain ⟨t'', hrun', ht''⟩ := hf.ok hQ t' ht'
    refine ⟨t'', ?_, ht''⟩
    rw [StateT.run_bind, hrun]
    exact hrun'
  · intro t ht c t'' h
    obtain ⟨a', t', hrun, hrun'⟩ := bind_ok h
    obtain ⟨hP, rfl, ht'⟩ := hm.inv t ht a' t' hrun
    obtain ⟨hQ, hc, ht''⟩ := hf.inv t' ht' c t'' hrun'
    exact ⟨⟨hP, hQ⟩, hc, ht''⟩

theorem Reads.congr {Q : Prop} (h : Reads m s k P a k') (hPQ : P ↔ Q) : Reads m s k Q a k' :=
  ⟨fun hQ => h.ok (hPQ.2 hQ), fun t ht b t' hrun => ⟨hPQ.1 (h.inv t ht b t' hrun).1,
    (h.inv t ht b t' hrun).2⟩⟩

theorem Reads.throw (e : Throwable) : Reads (throw e : DataInput α) s k False a k' := by
  constructor
  · intro hfalse
    exact hfalse.elim
  · intro t _ b t' h
    cases h

end

variable {s : ByteSource} {k : Nat}

theorem reads_require (c : Prop) [Decidable c] (e : Throwable) :
    Reads (require c e) s k c () k := by
  unfold require
  by_cases hc : c
  · rw [if_pos hc]
    exact (Reads.pure ()).congr (iff_of_true trivial hc)
  · rw [if_neg hc]
    exact (Reads.throw e).congr (iff_of_false id hc)

theorem reads_readBytes (n : Nat) :
    Reads (readBytes n) s k (n ≤ s.bytes.length - k) ((s.bytes.drop k).take n) (k + n) := by
  constructor
  · intro hn t ht
    rw [← List.length_drop, ← ht.bytes] at hn
    obtain ⟨t', hrun, hcons⟩ := ByteSource.readFully_ok hn
    refine ⟨t', ?_, ht.trans hcons⟩
    simp [readBytes, StateT.run, hrun, ht.bytes]
  · intro t ht bs t' h
    rw [← List.length_drop, ← ht.bytes]
    by_cases hn : n ≤ t.bytes.length
    · obtain ⟨r, hr, hcons⟩ := ByteSource.readFully_ok hn
      simp only [readBytes, StateT.run, hr, Except.ok.injEq, Prod.mk.injEq] at h
      obtain ⟨rfl, rfl⟩ := h
      exact ⟨hn, rfl, ht.trans hcons⟩
    · rw [Nat.not_le] at hn
      simp [readBytes, StateT.run, ByteSource.readFully_error hn] at h

/-- Skipping past the end of a closed stream goes unnoticed. -/
theorem reads_skipBytes (n : Nat) :
    Reads (skipBytes n) s k (n ≤ s.bytes.length - k ∨ s.fate = .closed) () (k + n) := by
  constructor
  · intro hn t ht
    rw [← List.length_drop, ← ht.bytes, ← ht.fate] at hn
    by_cases hle : n ≤ t.bytes.length
    · obtain ⟨t', hrun, hcons⟩ := ByteSource.skipBytes_ok hle
      exact ⟨t', by simp [skipBytes, StateT.run, hrun], ht.trans hcons⟩
    · have hclosed := hn.resolve_left hle
      rw [Nat.not_le] at hle
      rcases ByteSource.skipBytes_short hle with ⟨-, t', hrun, hnil, hfate⟩ | ⟨hbroken, -⟩
      · refine ⟨t', by simp [skipBytes, StateT.run, hrun], ht.trans ⟨?_, ?_⟩⟩
        · rw [hnil, List.drop_eq_nil_of_le (Nat.le_of_lt hle)]
        · rw [hfate, hclosed]
      · rw [hclosed] at hbroken
        cases hbroken
  · intro t ht u t' h
    rw [← List.length_drop, ← ht.bytes, ← ht.fate]
    by_cases hle : n ≤ t.bytes.length
    · obtain ⟨r, hr, hcons⟩ := ByteSource.skipBytes_ok hle
      simp only [skipBytes, StateT.run, hr, Except.ok.injEq, Prod.mk.injEq] at h
      obtain ⟨-, rfl⟩ := h
      exact ⟨.inl hle, rfl, ht.trans hcons⟩
    · rw [Nat.not_le] at hle
      rcases ByteSource.skipBytes_short hle with ⟨hclosed, r, hr, hnil, hfate⟩ | ⟨-, hr⟩
      · simp only [skipBytes, StateT.run, hr, Except.ok.injEq, Prod.mk.injEq] at h
        obtain ⟨-, rfl⟩ := h
        refine ⟨.inr hclosed, rfl, ht.trans ⟨?_, ?_⟩⟩
        · rw [hnil, List.drop_eq_nil_of_le (Nat.le_of_lt hle)]
        · rw [hfate, hclosed]
      · simp [skipBytes, StateT.run, hr] at h

/-- The fields of a header are numbers of `n` bytes, taken as `g` of them. -/
private theorem reads_number {α : Type} (n : Nat) (g : Nat → α) :
    Reads (do return g (ofBE (← readBytes n))) s k (n ≤ s.bytes.length - k)
      (g (beAt s.bytes k n)) (k + n) :=
  ((reads_readBytes n).bind (f := fun bs => Pure.pure (g (ofBE bs))) (.pure _)).congr
    (and_iff_left trivial)

theorem reads_readInt :
    Reads readInt s k (4 ≤ s.bytes.length - k) (Int32.ofNat (beAt s.bytes k 4)) (k + 4) :=
  reads_number 4 Int32.ofNat

theorem reads_readLong :
    Reads readLong s k (8 ≤ s.bytes.length - k) (Int64.ofNat (beAt s.bytes k 8)) (k + 8) :=
  reads_number 8 Int64.ofNat

theorem reads_readUnsignedShort :
    Reads readUnsignedShort s k (2 ≤ s.bytes.length - k) (Int32.ofNat (beAt s.bytes k 2))
      (k + 2) :=
  reads_number 2 Int32.ofNat

theorem reads_readUnsignedByte :
    Reads readUnsignedByte s k (1 ≤ s.bytes.length - k) (Int32.ofNat (beAt s.bytes k 1))
      (k + 1) :=
  reads_number 1 Int32.ofNat

end DataInput

namespace Protocol

open DataInput

/-! ## Frame headers -/

def frameHeaderOf (bs : List UInt8) : FrameHeader where
  length := Int32.ofNat (beAt bs 0 4)
  ptsNs := Int64.ofNat (beAt bs 4 8)
  keyframe := Int32.ofNat (beAt bs 12 1) &&& FLAG_KEYFRAME != 0
  streamType := Int32.ofNat (beAt bs 13 1)

/-- The lengths `readFrameHeader` takes. -/
def Plausible (length : Int32) : Prop := ¬(length < 0 ∨ MAX_FRAME_BYTES < length)

instance (length : Int32) : Decidable (Plausible length) := inferInstanceAs (Decidable (¬_))

theorem Plausible.le_max {length : Int32} (h : Plausible length) :
    length.toNatClampNeg ≤ maxFrameBytes := by
  have hmax : maxFrameBytes = 8388608 := by decide
  have hbound : MAX_FRAME_BYTES.toInt = 8388608 := by decide
  have hle : ¬MAX_FRAME_BYTES < length := fun hlt => h (.inr hlt)
  rw [Int32.lt_iff_toInt_lt, hbound] at hle
  rw [Int32.toNatClampNeg, hmax]
  omega

/-- **Frame headers**: 14 bytes of one are read, and 2 skipped. -/
theorem reads_readFrameHeader (s : ByteSource) :
    Reads readFrameHeader s 0 (14 ≤ s.bytes.length ∧ Plausible (frameHeaderOf s.bytes).length ∧
      (16 ≤ s.bytes.length ∨ s.fate = .closed)) (frameHeaderOf s.bytes) 16 := by
  have h : Reads readFrameHeader s 0 _ (frameHeaderOf s.bytes) _ :=
    reads_readInt.bind ((reads_require _ _).bind (reads_readLong.bind
      (reads_readUnsignedByte.bind (reads_readUnsignedByte.bind ((reads_skipBytes 2).bind
        (.pure _))))))
  refine h.congr ?_
  have hlen : (frameHeaderOf s.bytes).length = Int32.ofNat (beAt s.bytes 0 4) := rfl
  rw [Plausible, hlen]
  constructor
  · rintro ⟨-, hplausible, -, -, hlast, hskip, -⟩
    exact ⟨by omega, hplausible, hskip.imp (fun _ => by omega) id⟩
  · rintro ⟨hlast, hplausible, hskip⟩
    exact ⟨by omega, hplausible, by omega, by omega, by omega,
      hskip.imp (fun _ => by omega) id, trivial⟩

/-! ## Stream headers -/

def streamHeaderOf (bs : List UInt8) : StreamHeader where
  width := Int32.ofNat (beAt bs 6 2)
  height := Int32.ofNat (beAt bs 8 2)
  framerate := Int32.ofNat (beAt bs 10 2)
  mime := if Int32.ofNat (beAt bs 12 1) = 0 then "video/avc" else "video/hevc"
  audioCodec := Int32.ofNat (beAt bs 13 1)
  audioSampleRateHz := Int32.ofNat (beAt bs 14 2)
  audioChannels := Int32.ofNat (beAt bs 16 1)
  audioPreSkip := Int32.ofNat (beAt bs 17 2)

/-- What `readStreamHeader` asks of the fields. -/
structure Supported (bs : List UInt8) : Prop where
  magic : Int32.ofNat (beAt bs 0 4) = MAGIC
  version : Int32.ofNat (beAt bs 4 2) = VERSION
  codec : Int32.ofNat (beAt bs 12 1) = 0 ∨ Int32.ofNat (beAt bs 12 1) = 1
  audioCodec : Int32.ofNat (beAt bs 13 1) = AUDIO_CODEC_NONE ∨
    Int32.ofNat (beAt bs 13 1) = AUDIO_CODEC_OPUS

theorem reads_mimeOf {s : ByteSource} {k : Nat} (codec : Int32) :
    Reads (mimeOf codec) s k (codec = 0 ∨ codec = 1)
      (if codec = 0 then "video/avc" else "video/hevc") k := by
  unfold mimeOf
  by_cases havc : codec = 0
  · rw [if_pos havc, if_pos havc]
    exact (Reads.pure _).congr (iff_of_true trivial (.inl havc))
  · rw [if_neg havc, if_neg havc]
    by_cases hhevc : codec = 1
    · rw [if_pos hhevc]
      exact (Reads.pure _).congr (iff_of_true trivial (.inr hhevc))
    · rw [if_neg hhevc]
      exact (Reads.throw _).congr (iff_of_false id fun h => h.elim havc hhevc)

/-- **Stream headers**: 19 bytes of one are read, and 5 skipped. -/
theorem reads_readStreamHeader (s : ByteSource) :
    Reads readStreamHeader s 0 (19 ≤ s.bytes.length ∧ Supported s.bytes ∧
      (24 ≤ s.bytes.length ∨ s.fate = .closed)) (streamHeaderOf s.bytes) 24 := by
  have h : Reads readStreamHeader s 0 _ (streamHeaderOf s.bytes) _ :=
    reads_readInt.bind ((reads_require _ _).bind (reads_readUnsignedShort.bind
      ((reads_require _ _).bind (reads_readUnsignedShort.bind (reads_readUnsignedShort.bind
      (reads_readUnsignedShort.bind (reads_readUnsignedByte.bind (reads_readUnsignedByte.bind
      (reads_readUnsignedShort.bind (reads_readUnsignedByte.bind (reads_readUnsignedShort.bind
      ((reads_skipBytes 5).bind ((reads_mimeOf _).bind ((reads_require _ _).bind
        (.pure _)))))))))))))))
  refine h.congr ?_
  constructor
  · rintro ⟨-, hmagic, -, hversion, -, -, -, -, -, -, -, hlast, hskip, hcodec, haudio, -⟩
    exact ⟨by omega, ⟨hmagic, hversion, hcodec, haudio⟩, hskip.imp (fun _ => by omega) id⟩
  · rintro ⟨hlast, hsupported, hskip⟩
    exact ⟨by omega, hsupported.magic, by omega, hsupported.version, by omega, by omega, by omega,
      by omega, by omega, by omega, by omega, by omega, hskip.imp (fun _ => by omega) id,
      hsupported.codec, hsupported.audioCodec, trivial⟩

/-! ## Payloads -/

theorem reads_readFully {s : ByteSource} {k : Nat} {buffer : List UInt8} {length : Int32}
    (hroom : length.toNatClampNeg ≤ buffer.length) :
    Reads (readFully buffer length) s k (length.toNatClampNeg ≤ s.bytes.length - k)
      ((s.bytes.drop k).take length.toNatClampNeg ++ buffer.drop length.toNatClampNeg)
      (k + length.toNatClampNeg) := by
  generalize hn : length.toNatClampNeg = n at *
  constructor
  · intro hle t ht
    rw [← List.length_drop, ← ht.bytes] at hle
    obtain ⟨t', hrun, hcons⟩ := readFullyFrom_ok hroom (Nat.zero_le n) hle
    refine ⟨t', ?_, ht.trans hcons⟩
    simp only [readFully, StateT.run, hn, hrun, ht.bytes, List.take_zero, List.nil_append,
      Nat.sub_zero]
  · intro t ht b t' h
    rw [← List.length_drop, ← ht.bytes]
    simp only [readFully, StateT.run, hn] at h
    by_cases hle : n ≤ t.bytes.length
    · obtain ⟨r, hr, hcons⟩ := readFullyFrom_ok hroom (Nat.zero_le n) hle
      simp only [hr, Except.ok.injEq, Prod.mk.injEq, List.take_zero, List.nil_append,
        Nat.sub_zero] at h
      obtain ⟨rfl, rfl⟩ := h
      exact ⟨hle, rfl, ht.trans hcons⟩
    · have hshort : t.bytes.length < n - 0 := Nat.lt_of_not_le hle
      obtain ⟨e, he⟩ := readFullyFrom_short buffer hshort
      rw [he] at h
      cases h

end Protocol

end PadPlay.Device
