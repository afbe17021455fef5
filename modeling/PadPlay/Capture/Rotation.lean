import PadPlay.Capture.Constraints
import PadPlay.Capture.Pool
import PadPlay.Lib.Rotation

/-!
# Which slot a frame is written to (`capture::session`)

`try_capture_frame` moves to the next slot before it knows what becomes of the frame, and
`allocate_pool` gives up the old pool before anything that can fail. The log of a call says which
slots were attached to frames, which one was returned, and where the pool was rebuilt. Over all
calls it is a rotation of the pool's slots (`captureFrame_rotation`).
-/

namespace PadPlay.CaptureSession

open PadPlay.Lib

/-! ## The log of a call -/

namespace Capture

/-- `attach_buffer` in `try_capture_frame`, and the slot in the timing that is returned. -/
def logTry (c : Capture) (turns : List Turn) : List SlotEvent :=
  if c.state.sessionStopped then []
  else if c.buffers = [] then []
  else
    .taken c.nextBuffer ::
      match c.tryCaptureFrame turns with
      | some (.ok timing, _) => [.returned timing.bufferIndex]
      | _ => []

/-- Where `renegotiate` comes as far as a new pool. -/
def logRenegotiate (c : Capture) (turns : List Turn) (answers : PoolAnswers) : List SlotEvent :=
  match awaitDone c.state turns with
  | some (.ok (), state) =>
    match { c with state }.allocatePool answers with
    | (.ok (), _) => [.renewed]
    | (.error _, _) => []
  | _ => []

/-- A call that waits forever has a log, too. -/
def logFrame (c : Capture) (script : FrameScript) : List SlotEvent :=
  c.logTry script.first ++
    match c.tryCaptureFrame script.first with
    | some (.error .bufferConstraints, c) =>
      c.logRenegotiate script.constraints script.pool ++
        match c.renegotiate script.constraints script.pool with
        | some (.ok (), c) => c.logTry script.second
        | _ => []
    | _ => []

/-- The log of `capture_frame` calls, up to one that does not return. -/
def log (c : Capture) : List FrameScript → List SlotEvent
  | [] => []
  | script :: scripts =>
    c.logFrame script ++
      match c.captureFrame script with
      | some (_, c) => c.log scripts
      | none => []

/-- One `capture_frame` call after the other, whatever they return. -/
def frames (c : Capture) : Machine Capture FrameScript where
  init := c
  step c script := (c.captureFrame script).map Prod.snd

end Capture

/-! ## What a call keeps -/

/-- A pool of `n` slots, or none at all. -/
structure Capture.Rotating (n : Nat) (c : Capture) : Prop where
  poolSize : c.poolSize = n
  slots : c.buffers = [] ∨ c.buffers.length = n ∧ c.nextBuffer < n
  dmabufs : c.mode = .dmabuf → ∀ b ∈ c.buffers, ∃ d, b = .dmabuf d

/-- A failed `allocate_pool` leaves the next slot where it was, though no slot is left. -/
theorem Capture.allocatePool_kept {c c' : Capture} {answers : PoolAnswers} {e : CaptureError}
    (h : c.allocatePool answers = (.error e, c')) :
    c'.poolSize = c.poolSize ∧ c'.nextBuffer = c.nextBuffer := by
  unfold allocatePool at h
  simp only at h
  split at h
  · cases h; exact ⟨rfl, rfl⟩
  · split at h
    · split at h
      · cases h; exact ⟨rfl, rfl⟩
      · split at h <;> cases h
        exact ⟨rfl, rfl⟩
    · split at h
      · cases h; exact ⟨rfl, rfl⟩
      · split at h
        · cases h; exact ⟨rfl, rfl⟩
        · split at h
          · cases h; exact ⟨rfl, rfl⟩
          · split at h <;> cases h
            exact ⟨rfl, rfl⟩

section
variable {n : Nat} {c c' : Capture} {log : List SlotEvent}

theorem Capture.Rotating.built {answers : PoolAnswers} (hn : 0 < n) (hsize : c.poolSize = n)
    (h : Built c c' answers) : c'.Rotating n where
  poolSize := h.poolSize.trans hsize
  slots := .inr ⟨h.length.trans hsize, h.nextBuffer ▸ hn⟩
  dmabufs hmode b hb := by
    obtain ⟨_, backings, hbackings⟩ := h.dmabufs (h.mode.symm.trans hmode)
    rw [hbackings.buffers] at hb
    obtain ⟨d, -, rfl⟩ := List.mem_map.1 hb
    exact ⟨d, rfl⟩

theorem Capture.Rotating.unbuilt {answers : PoolAnswers} {e : CaptureError} (hc : c.Rotating n)
    (h : c.allocatePool answers = (.error e, c')) : c'.Rotating n where
  poolSize := (allocatePool_kept h).1.trans hc.poolSize
  slots := .inl (allocatePool_error h).buffers
  dmabufs _ b hb := by
    rw [(allocatePool_error h).buffers] at hb
    cases hb

theorem Capture.Rotating.withState (hc : c.Rotating n) (state : State) :
    Capture.Rotating n { c with state } := ⟨hc.poolSize, hc.slots, hc.dmabufs⟩

/-- Moving on to the next slot keeps the pool. -/
theorem Capture.Rotating.next (hn : 0 < n) (hc : c.Rotating n) :
    Capture.Rotating n { c with nextBuffer := (c.nextBuffer + 1) % c.buffers.length } where
  poolSize := hc.poolSize
  slots := by
    obtain hempty | ⟨hlen, -⟩ := hc.slots
    · exact .inl hempty
    · exact .inr ⟨hlen, hlen ▸ Nat.mod_lt _ (hlen ▸ hn)⟩
  dmabufs := hc.dmabufs

/-- `try_capture_frame` does nothing, or attaches the next slot and moves on. -/
inductive Tried (c : Capture) (turns : List Turn) :
    Option (Except CaptureError FrameTiming × Capture) → Prop
  | refused {e} (hlog : c.logTry turns = []) (hretry : e ≠ .bufferConstraints) :
    Tried c turns (some (.error e, c))
  | waiting (hlog : c.logTry turns = [.taken c.nextBuffer]) : Tried c turns none
  | failed {e state} (hbuffers : c.buffers ≠ []) (hlog : c.logTry turns = [.taken c.nextBuffer]) :
    Tried c turns (some (.error e,
      { c with state, nextBuffer := (c.nextBuffer + 1) % c.buffers.length }))
  | captured {timing state} (hbuffers : c.buffers ≠ []) (hslot : timing.bufferIndex = c.nextBuffer)
    (hlog : c.logTry turns = [.taken c.nextBuffer, .returned c.nextBuffer]) :
    Tried c turns (some (.ok timing,
      { c with state, nextBuffer := (c.nextBuffer + 1) % c.buffers.length }))

theorem Capture.tryCaptureFrame_tried (c : Capture) (turns : List Turn) :
    Tried c turns (c.tryCaptureFrame turns) := by
  by_cases hstopped : c.state.sessionStopped = true
  · have htry : c.tryCaptureFrame turns = some (.error .stopped, c) := by
      rw [tryCaptureFrame, if_pos hstopped]
    rw [htry]
    exact .refused (by rw [logTry, if_pos hstopped]) (by decide)
  · by_cases hbuffers : c.buffers = []
    · have htry : c.tryCaptureFrame turns = some (.error (.other "capture pool is empty"), c) := by
        rw [tryCaptureFrame, if_neg hstopped, if_pos hbuffers]
      rw [htry]
      exact .refused (by rw [logTry, if_neg hstopped, if_pos hbuffers]) (by decide)
    · have hlog : c.logTry turns = .taken c.nextBuffer ::
          match c.tryCaptureFrame turns with
          | some (.ok timing, _) => [.returned timing.bufferIndex]
          | _ => [] := by
        rw [logTry, if_neg hstopped, if_neg hbuffers]
      revert hlog
      rw [tryCaptureFrame, if_neg hstopped, if_neg hbuffers]
      simp only
      cases awaitFrame c.state.startFrame turns with
      | none => exact fun hlog => .waiting hlog
      | some awaited =>
        obtain ⟨_ | ⟨⟩, state⟩ := awaited
        · exact fun hlog => .failed hbuffers hlog
        · simp only
          cases state.frameFailed with
          | some reason => cases reason <;> exact fun hlog => .failed hbuffers hlog
          | none =>
            cases state.frameFailedRaw with
            | some raw => exact fun hlog => .failed hbuffers hlog
            | none => exact fun hlog => .captured hbuffers rfl hlog

theorem Tried.rotating {turns : List Turn} {r : Except CaptureError FrameTiming} (hn : 0 < n)
    (hc : c.Rotating n) (h : Tried c turns (some (r, c'))) : c'.Rotating n := by
  cases h with
  | refused => exact hc
  | failed => exact (hc.next hn).withState _
  | captured => exact (hc.next hn).withState _

theorem Capture.renegotiate_rotating {turns : List Turn} {answers : PoolAnswers}
    {r : Except CaptureError Unit} (hn : 0 < n) (hc : c.Rotating n)
    (h : c.renegotiate turns answers = some (r, c')) : c'.Rotating n := by
  unfold renegotiate at h
  split at h
  · cases h
  · cases h
    exact hc.withState _
  · next state _ =>
    have hc := hc.withState state
    split at h
    · next hpool =>
      cases h
      exact hc.unbuilt hpool
    · next c₁ hpool =>
      have hc₁ : c₁.Rotating n := .built hn hc.poolSize (allocatePool_ok hpool)
      split at h <;> cases h
      · exact ⟨hc₁.poolSize, hc₁.slots, hc₁.dmabufs⟩
      · exact hc₁

/-! ## How its log goes on -/

/-- What may follow in the log: nothing while a call waits, else a rotation from the next slot. -/
def Continues (n : Nat) {α : Type} : Option (α × Capture) → List SlotEvent → Prop
  | none, log => log = []
  | some (_, c), log => Rotates n none c.nextBuffer log

theorem Tried.rotates {turns : List Turn} {out : Option (Except CaptureError FrameTiming × Capture)}
    (hc : c.Rotating n) (h : Tried c turns out) (hlog : Continues n out log) :
    Rotates n none c.nextBuffer (c.logTry turns ++ log) := by
  have hnext : c.buffers ≠ [] → c.buffers.length = n := fun hbuffers =>
    (hc.slots.resolve_left hbuffers).1
  cases h with
  | refused htry => exact htry ▸ hlog
  | waiting htry =>
    rw [htry, show log = [] from hlog]
    exact .taken (.nil ..)
  | failed hbuffers htry =>
    rw [htry]
    exact .taken (hnext hbuffers ▸ hlog : Rotates n none _ log).forget
  | captured hbuffers _ htry =>
    rw [htry]
    exact .taken (.returned (hnext hbuffers ▸ hlog : Rotates n none _ log).forget)

theorem Capture.renegotiate_rotates {turns : List Turn} {answers : PoolAnswers}
    (hlog : Continues n (c.renegotiate turns answers) log) :
    Rotates n none c.nextBuffer (c.logRenegotiate turns answers ++ log) := by
  unfold renegotiate at hlog
  unfold logRenegotiate
  cases hawait : awaitDone c.state turns with
  | none =>
    rw [hawait] at hlog
    rw [show log = [] from hlog]
    exact .nil ..
  | some awaited =>
    obtain ⟨e | ⟨⟩, state⟩ := awaited
    · rw [hawait] at hlog
      exact hlog
    · simp only [hawait] at hlog ⊢
      cases hpool : Capture.allocatePool { c with state } answers with
      | mk outcome c₁ =>
        rw [hpool] at hlog
        cases outcome with
        | error e =>
          have hlog : Rotates n none c₁.nextBuffer log := hlog
          rw [(allocatePool_kept hpool).2] at hlog
          exact hlog
        | ok _ =>
          have hnext := (allocatePool_ok hpool).nextBuffer
          simp only at hlog
          split at hlog <;> exact .renewed (hnext ▸ hlog)

theorem Capture.captureFrame_rotates {script : FrameScript} (hn : 0 < n) (hc : c.Rotating n)
    (hlog : Continues n (c.captureFrame script) log) :
    Rotates n none c.nextBuffer (c.logFrame script ++ log) := by
  have htried := c.tryCaptureFrame_tried script.first
  unfold captureFrame at hlog
  unfold logFrame
  rw [List.append_assoc]
  refine htried.rotates hc ?_
  cases htry : c.tryCaptureFrame script.first with
  | none =>
    rw [htry] at hlog
    exact hlog
  | some tried =>
    obtain ⟨r, c₁⟩ := tried
    rw [htry] at htried hlog
    have hc₁ := htried.rotating hn hc
    cases r with
    | ok timing => exact hlog
    | error e =>
      cases e with
      | stopped => exact hlog
      | other message => exact hlog
      | bufferConstraints =>
        simp only at hlog
        simp only [List.append_assoc]
        refine renegotiate_rotates ?_
        cases hre : c₁.renegotiate script.constraints script.pool with
        | none =>
          rw [hre] at hlog
          exact hlog
        | some renegotiated =>
          rw [hre] at hlog
          obtain ⟨_ | ⟨⟩, c₂⟩ := renegotiated
          · exact hlog
          · exact (c₂.tryCaptureFrame_tried _).rotates (renegotiate_rotating hn hc₁ hre) hlog

/-- A call that returns has tried once, or has renegotiated behind its first try. -/
inductive Returns (c : Capture) (script : FrameScript) :
    Except CaptureError FrameTiming → Capture → Prop
  | once {r c'} (hfirst : c.tryCaptureFrame script.first = some (r, c'))
    (hlog : c.logFrame script = c.logTry script.first) : Returns c script r c'
  | refused {e c₁ c'}
    (hfirst : c.tryCaptureFrame script.first = some (.error .bufferConstraints, c₁))
    (hre : c₁.renegotiate script.constraints script.pool = some (.error e, c')) :
    Returns c script (.error e) c'
  | twice {r c₁ c₂ c'}
    (hfirst : c.tryCaptureFrame script.first = some (.error .bufferConstraints, c₁))
    (hre : c₁.renegotiate script.constraints script.pool = some (.ok (), c₂))
    (hsecond : c₂.tryCaptureFrame script.second = some (r, c'))
    (hlog : c.logFrame script = c.logTry script.first ++
      (c₁.logRenegotiate script.constraints script.pool ++ c₂.logTry script.second)) :
    Returns c script r c'

theorem Capture.captureFrame_returns {script : FrameScript}
    {r : Except CaptureError FrameTiming} (h : c.captureFrame script = some (r, c')) :
    Returns c script r c' := by
  unfold captureFrame at h
  split at h
  · next c₁ hfirst =>
    split at h
    · cases h
    · next hre =>
      cases h
      exact .refused hfirst hre
    · next c₂ hre =>
      refine .twice hfirst hre h ?_
      rw [logFrame, hfirst]
      simp only [hre]
  · next hother =>
    refine .once h ?_
    rw [logFrame, h]
    split
    · next c₁ heq => exact absurd (h.trans heq) (hother c₁)
    · exact List.append_nil _

theorem Capture.captureFrame_rotating {script : FrameScript} {r : Except CaptureError FrameTiming}
    (hn : 0 < n) (hc : c.Rotating n) (h : c.captureFrame script = some (r, c')) :
    c'.Rotating n := by
  have htried := c.tryCaptureFrame_tried script.first
  cases captureFrame_returns h with
  | once hfirst => exact (hfirst ▸ htried).rotating hn hc
  | refused hfirst hre =>
    exact renegotiate_rotating hn ((hfirst ▸ htried).rotating hn hc) hre
  | @twice _ _ c₂ _ hfirst hre hsecond =>
    have hc₂ := renegotiate_rotating hn ((hfirst ▸ htried).rotating hn hc) hre
    exact (hsecond ▸ c₂.tryCaptureFrame_tried script.second).rotating hn hc₂

theorem Capture.log_rotates (hn : 0 < n) (hc : c.Rotating n) (scripts : List FrameScript) :
    Rotates n none c.nextBuffer (c.log scripts) := by
  induction scripts generalizing c with
  | nil => exact .nil ..
  | cons script scripts ih =>
    rw [log]
    refine captureFrame_rotates hn hc ?_
    cases hframe : c.captureFrame script with
    | none => rfl
    | some framed => exact ih (captureFrame_rotating hn hc hframe)

/-! ## What a call returns -/

theorem Tried.returned {turns : List Turn} {timing : FrameTiming}
    (h : Tried c turns (some (.ok timing, c'))) :
    c.logTry turns = [.taken timing.bufferIndex, .returned timing.bufferIndex] ∧
      timing.bufferIndex = c.nextBuffer ∧ c.buffers ≠ [] ∧ c.SamePool c' := by
  cases h with
  | captured hbuffers hslot hlog => exact ⟨hslot ▸ hlog, hslot, hbuffers, _, _, rfl⟩

theorem Capture.Rotating.dmabuf {slot : Nat} (hc : c.Rotating n) (hslot : slot = c.nextBuffer)
    (hbuffers : c.buffers ≠ []) (hsame : c.SamePool c') (hmode : c'.mode = .dmabuf) :
    (c'.dmabuf slot).isSome = true := by
  obtain ⟨_, _, rfl⟩ := hsame
  obtain ⟨hlen, hlt⟩ := hc.slots.resolve_left hbuffers
  have hslot : slot < c.buffers.length := by omega
  obtain ⟨d, hd⟩ := hc.dmabufs hmode c.buffers[slot] (List.getElem_mem hslot)
  rw [Capture.dmabuf, List.getElem?_eq_getElem hslot, hd]
  rfl

/-- The slot of a timing is the one that was attached last. -/
theorem Capture.captureFrame_returned {script : FrameScript} {timing : FrameTiming} (hn : 0 < n)
    (hc : c.Rotating n) (h : c.captureFrame script = some (.ok timing, c')) :
    (∃ before, c.logFrame script =
        before ++ [.taken timing.bufferIndex, .returned timing.bufferIndex]) ∧
      (c'.mode = .dmabuf → (c'.dmabuf timing.bufferIndex).isSome = true) := by
  have htried := c.tryCaptureFrame_tried script.first
  cases captureFrame_returns h with
  | once hfirst hframe =>
    obtain ⟨hlog, hslot, hbuffers, hsame⟩ := (hfirst ▸ htried).returned
    refine ⟨?_, hc.dmabuf hslot hbuffers hsame⟩
    rw [hframe, hlog]
    exact ⟨[], rfl⟩
  | @twice _ _ c₂ _ hfirst hre hsecond hframe =>
    have hc₂ := renegotiate_rotating hn ((hfirst ▸ htried).rotating hn hc) hre
    obtain ⟨hlog, hslot, hbuffers, hsame⟩ :=
      (hsecond ▸ c₂.tryCaptureFrame_tried script.second).returned
    refine ⟨?_, hc₂.dmabuf hslot hbuffers hsame⟩
    rw [hframe, hlog, ← List.append_assoc]
    exact ⟨_, rfl⟩

/-- Without a pool every call fails, and changes nothing. -/
theorem Capture.captureFrame_empty (hbuffers : c.buffers = []) (script : FrameScript) :
    ∃ e, c.captureFrame script = some (.error e, c) := by
  unfold captureFrame tryCaptureFrame
  by_cases hstopped : c.state.sessionStopped = true
  · exact ⟨.stopped, by simp only [hstopped, if_true]⟩
  · exact ⟨.other "capture pool is empty", by simp only [hstopped, hbuffers, if_true]; rfl⟩

theorem Capture.new_rotating {config : CaptureConfig} {turns : List Turn} {answers : PoolAnswers}
    (h : Capture.new config turns answers = some (.ok (), c)) :
    c.Rotating (max config.poolSize 1) := by
  obtain ⟨c₀, -, -, -, hsize, hbuilt⟩ := Capture.new_built h
  exact .built (Nat.lt_of_lt_of_le Nat.zero_lt_one (Nat.le_max_right ..)) hsize hbuilt

end

/-- **The rotation of the pool.** After any calls the next slot is one of the pool's, or the pool is
lost and every call fails. A timing names the slot that was attached last. A slot that was returned
is attached again only behind all the others, unless the pool is rebuilt. -/
theorem captureFrame_rotation {config : CaptureConfig} {turns : List Turn} {answers : PoolAnswers}
    {c : Capture} (hnew : Capture.new config turns answers = some (.ok (), c))
    (scripts : List FrameScript) :
    (∀ c', c.frames.run scripts = some c' →
      (c'.buffers = [] ∧ (∀ script, ∃ e, c'.captureFrame script = some (.error e, c')) ∨
        c'.nextBuffer < c'.buffers.length) ∧
      ∀ script timing c'', c'.captureFrame script = some (.ok timing, c'') →
        (∃ before, c'.logFrame script =
          before ++ [.taken timing.bufferIndex, .returned timing.bufferIndex]) ∧
        (c''.mode = .dmabuf → (c''.dmabuf timing.bufferIndex).isSome = true)) ∧
      ∀ before between after slot other,
        c.log scripts = before ++ .returned slot :: (between ++ .taken slot :: after) →
          .renewed ∉ between → other < max config.poolSize 1 → other ≠ slot →
            .taken other ∈ between := by
  have hn : 0 < max config.poolSize 1 := Nat.lt_of_lt_of_le Nat.zero_lt_one (Nat.le_max_right ..)
  have hc := Capture.new_rotating hnew
  constructor
  · intro c' hrun
    have hc' : c'.Rotating (max config.poolSize 1) := by
      refine c.frames.run_invariant hc ?_ hrun
      intro c₁ script c₂ hc₁ hstep
      obtain ⟨out, hout, rfl⟩ := Option.map_eq_some_iff.1 hstep
      exact Capture.captureFrame_rotating hn hc₁ hout
    refine ⟨?_, fun script timing c'' h => Capture.captureFrame_returned hn hc' h⟩
    obtain hempty | ⟨hlen, hlt⟩ := hc'.slots
    · exact .inl ⟨hempty, Capture.captureFrame_empty hempty⟩
    · exact .inr (hlen ▸ hlt)
  · intro before between after slot other hlog hrenewed hother hne
    have hrotates := Capture.log_rotates hn hc scripts
    rw [hlog] at hrotates
    exact hrotates.reuse (fun s hs => by cases hs) hrenewed hother hne

/-- A call whose frame becomes ready at once. -/
def readyFrame : FrameScript := ⟨[⟨false, .ok [.frame .ready]⟩], [], obliging, []⟩

/-- Two slots and three frames: the first slot is attached again behind the second. -/
theorem captureFrame_rotation_two :
    ∃ c, Capture.new ⟨.dmabuf, 2, [0]⟩ [⟨false, .ok (completed (smallBatch 64 48 XR24))⟩] obliging =
        some (.ok (), c) ∧
      c.log [readyFrame, readyFrame, readyFrame] =
        [.taken 0, .returned 0, .taken 1, .returned 1, .taken 0, .returned 0] ∧
      .taken 1 ∈ [SlotEvent.taken 1, .returned 1] := by
  refine ⟨_, rfl, rfl, ?_⟩
  have hnew : ∃ c, Capture.new ⟨.dmabuf, 2, [0]⟩
        [⟨false, .ok (completed (smallBatch 64 48 XR24))⟩] obliging = some (.ok (), c) ∧
      c.log [readyFrame, readyFrame, readyFrame] =
        [.taken 0] ++ .returned 0 :: ([.taken 1, .returned 1] ++ .taken 0 :: [.returned 0]) :=
    ⟨_, rfl, rfl⟩
  obtain ⟨c, hnew, hlog⟩ := hnew
  exact (captureFrame_rotation hnew [readyFrame, readyFrame, readyFrame]).2 _ _ _ 0 1 hlog
    (by decide) (by decide) (by decide)

end PadPlay.CaptureSession
