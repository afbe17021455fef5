import PadPlay.Capture.Session

/-!
# The pool across frames (`capture::session`)

What a `capture_frame` call does to the pool: keep it, rebuild it once for a new constraint set of
the same size, report a new size, or lose it to a failed build. Whatever the call does, in DMA-BUF
mode the pool that is left is of one constraint set's making (`Pooled`).
-/

namespace PadPlay.CaptureSession

/-! ## What a call does to the pool -/

def Capture.SamePool (c c' : Capture) : Prop :=
  ∃ state nextBuffer, c' = { c with state, nextBuffer }

theorem Capture.SamePool.refl (c : Capture) : c.SamePool c := ⟨c.state, c.nextBuffer, rfl⟩

theorem Capture.SamePool.trans {c₁ c₂ c₃ : Capture} (h₁ : c₁.SamePool c₂) (h₂ : c₂.SamePool c₃) :
    c₁.SamePool c₃ := by
  obtain ⟨_, _, rfl⟩ := h₁
  obtain ⟨state, nextBuffer, rfl⟩ := h₂
  exact ⟨state, nextBuffer, rfl⟩

theorem Capture.SamePool.size {c c' : Capture} (h : c.SamePool c') :
    (c'.width, c'.height) = (c.width, c.height) := by
  obtain ⟨_, _, rfl⟩ := h
  rfl

/-- `try_capture_frame` keeps the pool, and returns the slot whose turn it was. -/
theorem Capture.tryCaptureFrame_spec {c c' : Capture} {turns : List Turn}
    {r : Except CaptureError FrameTiming} (h : c.tryCaptureFrame turns = some (r, c')) :
    c.SamePool c' ∧ ∀ timing, r = .ok timing →
      c.buffers ≠ [] ∧ timing.bufferIndex = c.nextBuffer ∧
        c'.nextBuffer = (c.nextBuffer + 1) % c.buffers.length := by
  unfold tryCaptureFrame at h
  split at h
  · cases h; exact ⟨.refl c, nofun⟩
  · split at h
    · cases h; exact ⟨.refl c, nofun⟩
    · next hbuffers =>
      simp only at h
      split at h
      · cases h
      · cases h; exact ⟨⟨_, _, rfl⟩, nofun⟩
      · split at h
        · cases h; exact ⟨⟨_, _, rfl⟩, nofun⟩
        · cases h; exact ⟨⟨_, _, rfl⟩, nofun⟩
        · cases h; exact ⟨⟨_, _, rfl⟩, nofun⟩
        · cases h; exact ⟨⟨_, _, rfl⟩, nofun⟩
        · cases h
          refine ⟨⟨_, _, rfl⟩, ?_⟩
          intro timing htiming
          cases htiming
          exact ⟨hbuffers, rfl, rfl⟩

inductive Renegotiated (c : Capture) (answers : PoolAnswers) :
    Except CaptureError Unit × Capture → Prop
  | kept {e c'} (h : c.SamePool c') : Renegotiated c answers (.error e, c')
  | lost {e c₁ c'} (hsame : c.SamePool c₁) (h : Unbuilt c₁ c') :
    Renegotiated c answers (.error e, c')
  | rebuilt {c₁ c₂} (hsame : c.SamePool c₁) (hbuilt : Built c₁ c₂ answers)
    (hsize : (c₂.width, c₂.height) = (c.width, c.height)) : Renegotiated c answers (.ok (), c₂)
  | resized {c₁ c₂} (hsame : c.SamePool c₁) (hbuilt : Built c₁ c₂ answers)
    (hsize : (c₂.width, c₂.height) ≠ (c.width, c.height)) :
    Renegotiated c answers
      (.error (geometryError c.width c.height c₂.width c₂.height),
        { c₂ with geometryChanged := true })

theorem Capture.renegotiate_spec {c : Capture} {turns : List Turn} {answers : PoolAnswers}
    {out : Except CaptureError Unit × Capture} (h : c.renegotiate turns answers = some out) :
    Renegotiated c answers out := by
  unfold renegotiate at h
  split at h
  · cases h
  · cases h; exact .kept ⟨_, c.nextBuffer, rfl⟩
  · next state _ =>
    have hsame : c.SamePool { c with state } := ⟨state, c.nextBuffer, rfl⟩
    split at h
    · next e c₂ hpool => cases h; exact .lost hsame (allocatePool_error hpool)
    · next c₂ hpool =>
      split at h
      · next hsize => cases h; exact .resized hsame (allocatePool_ok hpool) hsize
      · next hsize => cases h; exact .rebuilt hsame (allocatePool_ok hpool) (not_not.1 hsize)

inductive Captured (c : Capture) (answers : PoolAnswers) :
    Except CaptureError FrameTiming × Capture → Prop
  | kept {r c'} (h : c.SamePool c') : Captured c answers (r, c')
  | lost {e c₁ c'} (hsame : c.SamePool c₁) (h : Unbuilt c₁ c') : Captured c answers (.error e, c')
  | rebuilt {r c₁ c₂ c'} (hsame : c.SamePool c₁) (hbuilt : Built c₁ c₂ answers)
    (hsize : (c₂.width, c₂.height) = (c.width, c.height)) (hafter : c₂.SamePool c') :
    Captured c answers (r, c')
  | resized {c₁ c₂} (hsame : c.SamePool c₁) (hbuilt : Built c₁ c₂ answers)
    (hsize : (c₂.width, c₂.height) ≠ (c.width, c.height)) :
    Captured c answers
      (.error (geometryError c.width c.height c₂.width c₂.height),
        { c₂ with geometryChanged := true })

/-- **`capture_frame`**, through every way it can end. -/
theorem Capture.captureFrame_spec {c : Capture} {script : FrameScript}
    {out : Except CaptureError FrameTiming × Capture} (h : c.captureFrame script = some out) :
    Captured c script.pool out := by
  unfold captureFrame at h
  split at h
  · next c₁ hfirst =>
    have hsame := (tryCaptureFrame_spec hfirst).1
    split at h
    · cases h
    · next e c₂ hre =>
      cases h
      cases renegotiate_spec hre with
      | kept hkept => exact .kept (hsame.trans hkept)
      | lost hsame' hunbuilt => exact .lost (hsame.trans hsame') hunbuilt
      | resized hsame' hbuilt hsize =>
        obtain ⟨hwidth, hheight⟩ := Prod.mk.inj hsame.size
        rw [hwidth, hheight] at hsize ⊢
        exact .resized (hsame.trans hsame') hbuilt hsize
    · next c₂ hre =>
      cases renegotiate_spec hre with
      | rebuilt hsame' hbuilt hsize =>
        exact .rebuilt (hsame.trans hsame') hbuilt (hsize.trans hsame.size)
          (tryCaptureFrame_spec h).1
  · exact .kept (tryCaptureFrame_spec h).1

/-! ## The pool is of one making -/

/-- A DMA-BUF of the capture's size and format, with a modifier that one of the systems chose from
those picked from the constraints in use. -/
structure Fits (allowed : List UInt64) (systems : List PoolAnswers) (c : Capture) (d : Dmabuf) :
    Prop where
  width : d.width = c.width
  height : d.height = c.height
  format : d.format = c.format
  modifier : ∃ modifiers,
    pickDmabufFormat c.caps.dmabufFormats allowed = .ok (d.format, modifiers) ∧
      ∃ answers ∈ systems, ∃ i, answers.gbm i d.width d.height d.format modifiers = .ok d.modifier

structure Pooled (allowed : List UInt64) (systems : List PoolAnswers) (c : Capture) : Prop where
  mode : c.mode = .dmabuf
  allowedModifiers : c.allowedModifiers = allowed
  buffers : ∀ b ∈ c.buffers, ∃ d, b = .dmabuf d ∧ Fits allowed systems c d

section
variable {allowed : List UInt64} {systems : List PoolAnswers} {answers : PoolAnswers}
  {c c' : Capture}

/-- What is no part of the pool may change. -/
theorem Pooled.keeps (h : Pooled allowed systems c) (state : State) (nextBuffer : Nat)
    (geometryChanged : Bool) :
    Pooled allowed systems { c with state, nextBuffer, geometryChanged } := by
  obtain ⟨hmode, hallowed, hbuffers⟩ := h
  refine ⟨hmode, hallowed, ?_⟩
  intro b hb
  obtain ⟨d, rfl, hfits⟩ := hbuffers b hb
  exact ⟨d, rfl, ⟨hfits.width, hfits.height, hfits.format, hfits.modifier⟩⟩

theorem Pooled.samePool (h : Pooled allowed systems c) (hsame : c.SamePool c') :
    Pooled allowed systems c' := by
  obtain ⟨state, nextBuffer, rfl⟩ := hsame
  exact h.keeps state nextBuffer c.geometryChanged

theorem Pooled.unbuilt (h : Pooled allowed systems c) (hunbuilt : Unbuilt c c') :
    Pooled allowed systems c' := by
  refine ⟨hunbuilt.mode.trans h.mode, hunbuilt.allowedModifiers.trans h.allowedModifiers, ?_⟩
  rw [hunbuilt.buffers]
  nofun

theorem Pooled.built (hmode : c.mode = .dmabuf) (hallowed : c.allowedModifiers = allowed)
    (hmem : answers ∈ systems) (h : Built c c' answers) : Pooled allowed systems c' := by
  refine ⟨h.mode.trans hmode, h.allowedModifiers.trans hallowed, ?_⟩
  intro b hb
  obtain ⟨modifiers, backings, hd⟩ := h.dmabufs hmode
  rw [hd.buffers] at hb
  obtain ⟨d, hd', rfl⟩ := List.mem_map.1 hb
  obtain ⟨hwidth, hheight, hformat, i, hgbm⟩ := hd.backing d hd'
  refine ⟨d, rfl, hwidth, hheight, hformat, modifiers, ?_, answers, hmem, i, ?_⟩
  · rw [h.caps, hformat, ← hallowed]
    exact hd.picked
  · rw [hwidth, hheight, hformat]
    exact hgbm

theorem Captured.pooled {r : Except CaptureError FrameTiming} (h : Captured c answers (r, c'))
    (hmem : answers ∈ systems) (hpool : Pooled allowed systems c) : Pooled allowed systems c' := by
  cases h with
  | kept hsame => exact hpool.samePool hsame
  | lost hsame hunbuilt => exact (hpool.samePool hsame).unbuilt hunbuilt
  | rebuilt hsame hbuilt hsize hafter =>
    have hpool₁ := hpool.samePool hsame
    exact (Pooled.built hpool₁.mode hpool₁.allowedModifiers hmem hbuilt).samePool hafter
  | resized hsame hbuilt hsize =>
    have hpool₁ := hpool.samePool hsame
    have hpool₂ := Pooled.built hpool₁.mode hpool₁.allowedModifiers hmem hbuilt
    exact hpool₂.keeps _ _ true

end

/-- A `capture_frame` call that changes the pool's size says so. -/
theorem Captured.size {answers : PoolAnswers} {c c' : Capture}
    {r : Except CaptureError FrameTiming} (h : Captured c answers (r, c')) :
    (c'.width, c'.height) = (c.width, c.height) ∨
      r = .error (geometryError c.width c.height c'.width c'.height) := by
  cases h with
  | kept hsame => exact .inl hsame.size
  | lost hsame hunbuilt => exact .inl (hunbuilt.size.trans hsame.size)
  | rebuilt hsame hbuilt hsize hafter => exact .inl (hafter.size.trans hsize)
  | resized => exact .inr rfl

end PadPlay.CaptureSession
