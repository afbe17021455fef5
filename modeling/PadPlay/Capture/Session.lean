import PadPlay.Lib.BigEndian
import PadPlay.Lib.Machine

/-!
# Persistent capture session (`capture::session`)

The client state that Wayland events fill in, and the buffer pool built from the constraints among
them. Events arrive inside blocking dispatch calls; each waiting loop of the code is given the list
of what its dispatch calls bring, a list of `Turn`s, and is still waiting (`none`) when that runs
out.
-/

namespace PadPlay.CaptureSession

open PadPlay.Lib

/-! ## Configuration and constraints -/

inductive BufferMode where
  | shm
  | dmabuf
  deriving DecidableEq, Repr

structure CaptureConfig where
  mode : BufferMode
  poolSize : Nat
  /-- modifiers the consumer accepts, in preference order; empty means "let GBM choose" -/
  allowedModifiers : List UInt64
  deriving DecidableEq, Repr

structure SessionCaps where
  bufferSize : Option (UInt32 × UInt32)
  shmFormats : List UInt32
  dmabufFormats : List (UInt32 × List UInt64)
  dmabufDevice : Option UInt64
  deriving DecidableEq, Repr

def SessionCaps.default : SessionCaps := ⟨none, [], [], none⟩

/-! ## Events -/

/-- An enumeration on the wire, which may hold a value this client does not know. -/
inductive WEnum (α : Type) where
  | value (a : α)
  | unknown (raw : UInt32)
  deriving DecidableEq, Repr

inductive FailureReason where
  | unknown
  | bufferConstraints
  | stopped
  deriving DecidableEq, Repr

inductive Constraint where
  | bufferSize (width height : UInt32)
  | shmFormat (format : WEnum UInt32)
  | dmabufDevice (device : List UInt8)
  | dmabufFormat (format : UInt32) (modifiers : List UInt8)
  deriving DecidableEq, Repr

inductive SessionEvent where
  | constraint (c : Constraint)
  | done
  | stopped
  deriving DecidableEq, Repr

inductive FrameEvent where
  | presentationTime (tvSecHi tvSecLo tvNsec : UInt32)
  | ready
  | failed (reason : WEnum FailureReason)
  | other
  deriving DecidableEq, Repr

inductive WaylandEvent where
  | session (e : SessionEvent)
  | frame (e : FrameEvent)
  deriving DecidableEq, Repr

def completed (batch : List Constraint) : List WaylandEvent :=
  batch.map (fun c => .session (.constraint c)) ++ [.session .done]

/-! ## State -/

structure State where
  caps : SessionCaps
  sessionDone : Bool
  /-- Set once the current constraint set has been used to build a pool. The next constraint event
  of any kind then begins a fresh generation. -/
  capsConsumed : Bool
  sessionStopped : Bool
  frameReady : Bool
  frameFailed : Option FailureReason
  frameFailedRaw : Option UInt32
  presentationNs : Option UInt64
  deriving DecidableEq, Repr

namespace State

def default : State := ⟨.default, false, false, false, false, none, none, none⟩

/-- Start accumulating a new constraint generation, if the previous one has already been used to
build a buffer pool. -/
def beginGeneration (s : State) : State :=
  if s.capsConsumed then
    { s with caps := .default, capsConsumed := false, sessionDone := false }
  else s

end State

/-- `u64::from_ne_bytes` on a little-endian machine. -/
def u64FromNeBytes (bs : List UInt8) : UInt64 := UInt64.ofNat (ofBE bs.reverse)

def chunksExact8 : List UInt8 → List (List UInt8)
  | a :: b :: c :: d :: e :: f :: g :: h :: rest => [a, b, c, d, e, f, g, h] :: chunksExact8 rest
  | _ => []

def modifiersOf (bs : List UInt8) : List UInt64 := (chunksExact8 bs).map u64FromNeBytes

def SessionCaps.add (caps : SessionCaps) : Constraint → SessionCaps
  | .bufferSize width height => { caps with bufferSize := some (width, height) }
  | .shmFormat (.value format) => { caps with shmFormats := caps.shmFormats ++ [format] }
  | .shmFormat (.unknown _) => caps
  | .dmabufDevice device =>
    if 8 ≤ device.length then { caps with dmabufDevice := some (u64FromNeBytes (device.take 8)) }
    else caps
  | .dmabufFormat format modifiers =>
    { caps with dmabufFormats := caps.dmabufFormats ++ [(format, modifiersOf modifiers)] }

namespace State

def sessionEvent (s : State) : SessionEvent → State
  | .constraint c =>
    let s := s.beginGeneration
    { s with caps := s.caps.add c }
  | .done => { s with sessionDone := true }
  | .stopped => { s with sessionStopped := true }

def frameEvent (s : State) : FrameEvent → State
  | .presentationTime tvSecHi tvSecLo tvNsec =>
    let secs := (tvSecHi.toUInt64 <<< 32) ||| tvSecLo.toUInt64
    { s with presentationNs := some (secs * 1000000000 + tvNsec.toUInt64) }
  | .ready => { s with frameReady := true }
  | .failed (.value reason) => { s with frameFailed := some reason }
  | .failed (.unknown raw) => { s with frameFailedRaw := some raw }
  | .other => s

def event (s : State) : WaylandEvent → State
  | .session e => s.sessionEvent e
  | .frame e => s.frameEvent e

/-- What `try_capture_frame` clears before it asks for a frame. -/
def startFrame (s : State) : State :=
  { s with
    frameReady := false, frameFailed := none, frameFailedRaw := none, presentationNs := none }

end State

/-! ## Picking a format -/

inductive CaptureError where
  /-- the pool no longer matches the session; re-allocate and retry -/
  | bufferConstraints
  | stopped
  | other (message : String)
  deriving DecidableEq, Repr

/-- `u32::from_le_bytes(*code)`. -/
def fourcc (a b c d : UInt8) : UInt32 := UInt32.ofNat (ofBE [d, c, b, a])

def XR24 : UInt32 := fourcc 0x58 0x52 0x32 0x34
def AR24 : UInt32 := fourcc 0x41 0x52 0x32 0x34

def Argb8888 : UInt32 := 0
def Xrgb8888 : UInt32 := 1

def pickShmFormat (formats : List UInt32) : Except CaptureError UInt32 :=
  if Xrgb8888 ∈ formats then .ok Xrgb8888
  else if Argb8888 ∈ formats then .ok Argb8888
  else .error (.other "no supported shm format offered")

def offeredFor (formats : List (UInt32 × List UInt64)) (wanted : UInt32) : Option (List UInt64) :=
  (formats.find? fun entry => entry.1 == wanted).map Prod.snd

/-- One round of the loop over the wanted formats: what it returns, if it does. -/
def pickWanted (formats : List (UInt32 × List UInt64)) (allowed : List UInt64) (wanted : UInt32) :
    Option (UInt32 × List UInt64) :=
  match offeredFor formats wanted with
  | none => none
  | some offered =>
    if allowed = [] then some (wanted, offered)
    else (allowed.find? fun m => m ∈ offered).map fun modifier => (wanted, [modifier])

/-- Prefer XR24. When the consumer restricts modifiers, intersect against its list in its preference
order and return exactly one. -/
def pickDmabufFormat (formats : List (UInt32 × List UInt64)) (allowed : List UInt64) :
    Except CaptureError (UInt32 × List UInt64) :=
  match (pickWanted formats allowed XR24).or (pickWanted formats allowed AR24) with
  | some picked => .ok picked
  | none =>
    if allowed = [] then .error (.other "no supported DMA-BUF format offered")
    else .error (.other "compositor and consumer share no DMA-BUF modifier")

/-! ## The buffer pool -/

structure Dmabuf where
  width : UInt32
  height : UInt32
  format : UInt32
  modifier : UInt64
  deriving DecidableEq, Repr

inductive PoolBuffer where
  | shm (width height format : UInt32)
  | dmabuf (backing : Dmabuf)
  deriving DecidableEq, Repr

/-- What the system does while one pool is built: whether a DRM device opens, which modifier GBM
allocates the `i`-th buffer with, given a size, a format and modifiers, and whether the `i`-th
shared memory buffer can be made. -/
structure PoolAnswers where
  device : UInt64 → Except String Unit
  gbm : Nat → UInt32 → UInt32 → UInt32 → List UInt64 → Except String UInt64
  shm : Nat → Except String Unit

def obliging : PoolAnswers :=
  ⟨fun _ => .ok (), fun _ _ _ _ modifiers => .ok (modifiers.headD 0), fun _ => .ok ()⟩

structure Capture where
  state : State
  buffers : List PoolBuffer
  nextBuffer : Nat
  width : UInt32
  height : UInt32
  mode : BufferMode
  caps : SessionCaps
  format : UInt32
  modifier : Option UInt64
  poolSize : Nat
  allowedModifiers : List UInt64
  geometryChanged : Bool
  /-- the `dev_t` the allocator was opened for -/
  allocator : Option UInt64

def makeBuffers {β : Type} (make : Nat → Except String β) : Nat → Except String (List β)
  | 0 => .ok []
  | n + 1 =>
    match makeBuffers make n with
    | .error e => .error e
    | .ok bs =>
      match make n with
      | .error e => .error e
      | .ok b => .ok (bs ++ [b])

namespace Capture

def usePool (c : Capture) (caps : SessionCaps) (width height : UInt32) (buffers : List PoolBuffer)
    (format : UInt32) (modifier : Option UInt64) : Capture :=
  { c with
    buffers, nextBuffer := 0, width, height, caps, format, modifier
    state := { c.state with capsConsumed := true } }

/-- Build (or rebuild) the buffer pool from the session's current constraints. The old buffers are
gone even when this fails. -/
def allocatePool (c : Capture) (answers : PoolAnswers) : Except CaptureError Unit × Capture :=
  let c := { c with buffers := [] }
  let caps := c.state.caps
  match caps.bufferSize with
  | none => (.error (.other "compositor never sent buffer_size"), c)
  | some (width, height) =>
    match c.mode with
    | .shm =>
      match pickShmFormat caps.shmFormats with
      | .error e => (.error e, c)
      | .ok format =>
        match makeBuffers (fun i =>
            (answers.shm i).map fun _ => PoolBuffer.shm width height format) c.poolSize with
        | .error e => (.error (.other e), c)
        | .ok buffers => (.ok (), c.usePool caps width height buffers format none)
    | .dmabuf =>
      match pickDmabufFormat caps.dmabufFormats c.allowedModifiers with
      | .error e => (.error e, c)
      | .ok (format, modifiers) =>
        match caps.dmabufDevice with
        | none => (.error (.other "compositor offered DMA-BUF but no dmabuf_device"), c)
        | some dev =>
          -- the device can change between generations, so it is resolved each time
          match if c.allocator = some dev then .ok () else answers.device dev with
          | .error e => (.error (.other e), { c with allocator := none })
          | .ok () =>
            match makeBuffers (fun i =>
                (answers.gbm i width height format modifiers).map fun modifier =>
                  (⟨width, height, format, modifier⟩ : Dmabuf)) c.poolSize with
            | .error e => (.error (.other e), { c with allocator := none })
            | .ok backings =>
              let c := { c with allocator := some dev }
              (.ok (), c.usePool caps width height (backings.map .dmabuf) format
                (backings.getLast?.map Dmabuf.modifier))

end Capture

/-! ## Waiting for the compositor -/

/-- One round of a waiting loop: whether its deadline has passed when it is looked at, and what the
blocking dispatch call brings. -/
structure Turn where
  late : Bool
  events : Except String (List WaylandEvent)

/-- The loop of `Capture::new`, which looks for a stop after each dispatch. -/
def awaitNegotiation (s : State) : List Turn → Option (Except CaptureError Unit × State)
  | [] => if s.sessionDone then some (.ok (), s) else none
  | turn :: turns =>
    if s.sessionDone then some (.ok (), s)
    else
      match turn.events with
      | .error e => some (.error (.other e), s)
      | .ok events =>
        let s := events.foldl State.event s
        if s.sessionStopped then
          some (.error (.other "capture session stopped during negotiation"), s)
        else awaitNegotiation s turns

/-- What ends the loop of `renegotiate`, without a further dispatch. -/
def State.settled (s : State) : Option (Except CaptureError Unit) :=
  if s.sessionDone then some (.ok ())
  else if s.sessionStopped then
    some (.error (.other "capture session stopped during renegotiation"))
  else none

/-- The loop of `renegotiate`. -/
def awaitDone (s : State) : List Turn → Option (Except CaptureError Unit × State)
  | [] => s.settled.map fun outcome => (outcome, s)
  | turn :: turns =>
    match s.settled with
    | some outcome => some (outcome, s)
    | none =>
      if turn.late then some (.error (.other "timed out waiting for new buffer constraints"), s)
      else
        match turn.events with
        | .error e => some (.error (.other e), s)
        | .ok events => awaitDone (events.foldl State.event s) turns

def State.frameEnded (s : State) : Bool :=
  s.frameReady || s.frameFailed.isSome || s.frameFailedRaw.isSome

/-- The loop of `try_capture_frame`. -/
def awaitFrame (s : State) : List Turn → Option (Except CaptureError Unit × State)
  | [] => if s.frameEnded then some (.ok (), s) else none
  | turn :: turns =>
    if s.frameEnded then some (.ok (), s)
    else
      match turn.events with
      | .error e => some (.error (.other e), s)
      | .ok events => awaitFrame (events.foldl State.event s) turns

/-! ### What waiting leaves behind -/

def State.Leads (s s' : State) : Prop :=
  ∃ events : List WaylandEvent, s' = events.foldl State.event s

theorem State.Leads.refl (s : State) : s.Leads s := ⟨[], rfl⟩

theorem State.Leads.cons {s s' : State} (events : List WaylandEvent)
    (h : (events.foldl State.event s).Leads s') : s.Leads s' := by
  obtain ⟨more, rfl⟩ := h
  exact ⟨events ++ more, by rw [List.foldl_append]⟩

theorem awaitNegotiation_spec {s s' : State} {turns : List Turn} {r : Except CaptureError Unit}
    (h : awaitNegotiation s turns = some (r, s')) :
    s.Leads s' ∧ (r = .ok () → s'.sessionDone = true) := by
  fun_induction awaitNegotiation s turns with
  | case1 s hdone => cases h; exact ⟨.refl _, fun _ => hdone⟩
  | case2 => cases h
  | case3 s turn turns hdone => cases h; exact ⟨.refl _, fun _ => hdone⟩
  | case4 => cases h; exact ⟨.refl _, nofun⟩
  | case5 s turn turns hdone events hevents s₁ hstopped =>
    simp only [Option.some.injEq, Prod.mk.injEq] at h
    obtain ⟨rfl, hs⟩ := h
    exact ⟨⟨events, hs.symm⟩, nofun⟩
  | case6 s turn turns hdone events hevents s₁ hstopped ih => exact ⟨(ih h).1.cons events, (ih h).2⟩

theorem State.settled_ok {s : State} (h : s.settled = some (.ok ())) : s.sessionDone = true := by
  unfold settled at h
  split at h
  · assumption
  · split at h <;> cases h

theorem awaitDone_spec {s s' : State} {turns : List Turn} {r : Except CaptureError Unit}
    (h : awaitDone s turns = some (r, s')) :
    s.Leads s' ∧ (r = .ok () → s'.sessionDone = true) := by
  fun_induction awaitDone s turns with
  | case1 s =>
    obtain ⟨outcome, houtcome, h⟩ := Option.map_eq_some_iff.1 h
    cases h
    exact ⟨.refl _, fun hr => State.settled_ok (hr ▸ houtcome)⟩
  | case2 s turn turns outcome hsettled =>
    cases h
    exact ⟨.refl _, fun hr => State.settled_ok (hr ▸ hsettled)⟩
  | case3 => cases h; exact ⟨.refl _, nofun⟩
  | case4 => cases h; exact ⟨.refl _, nofun⟩
  | case5 s turn turns hsettled hlate events hevents ih => exact ⟨(ih h).1.cons events, (ih h).2⟩

theorem awaitFrame_spec {s s' : State} {turns : List Turn} {r : Except CaptureError Unit}
    (h : awaitFrame s turns = some (r, s')) : s.Leads s' := by
  fun_induction awaitFrame s turns with
  | case1 s hended => cases h; exact .refl _
  | case2 => cases h
  | case3 s turn turns hended => cases h; exact .refl _
  | case4 => cases h; exact .refl _
  | case5 s turn turns hended events hevents ih => exact (ih h).cons events

/-! ## Capturing -/

def geometryError (oldWidth oldHeight width height : UInt32) : CaptureError :=
  .other <| s!"capture geometry changed {oldWidth}x{oldHeight} -> {width}x{height}; " ++
    "pipeline must restart"

structure FrameTiming where
  presentationNs : Option UInt64
  bufferIndex : Nat
  deriving DecidableEq, Repr

/-- What one `capture_frame` meets: its waiting loops' turns and its pool's answers. -/
structure FrameScript where
  first : List Turn
  constraints : List Turn
  pool : PoolAnswers
  second : List Turn

namespace Capture

def new (config : CaptureConfig) (turns : List Turn) (answers : PoolAnswers) :
    Option (Except CaptureError Unit × Capture) :=
  let c : Capture :=
    { state := .default, buffers := [], nextBuffer := 0, width := 0, height := 0,
      mode := config.mode, caps := .default, format := 0, modifier := none,
      poolSize := max config.poolSize 1, allowedModifiers := config.allowedModifiers,
      geometryChanged := false, allocator := none }
  match awaitNegotiation .default turns with
  | none => none
  | some (.error e, state) => some (.error e, { c with state })
  | some (.ok (), state) => some ({ c with state }.allocatePool answers)

/-- Re-run constraint negotiation after the compositor invalidates the pool. A format or modifier
change is absorbed here; a geometry change is reported. -/
def renegotiate (c : Capture) (turns : List Turn) (answers : PoolAnswers) :
    Option (Except CaptureError Unit × Capture) :=
  match awaitDone c.state turns with
  | none => none
  | some (.error e, state) => some (.error e, { c with state })
  | some (.ok (), state) =>
    match { c with state }.allocatePool answers with
    | (.error e, c') => some (.error e, c')
    | (.ok (), c') =>
      if (c'.width, c'.height) ≠ (c.width, c.height) then
        some (.error (geometryError c.width c.height c'.width c'.height),
          { c' with geometryChanged := true })
      else some (.ok (), c')

def tryCaptureFrame (c : Capture) (turns : List Turn) :
    Option (Except CaptureError FrameTiming × Capture) :=
  if c.state.sessionStopped then some (.error .stopped, c)
  else if c.buffers = [] then some (.error (.other "capture pool is empty"), c)
  else
    let index := c.nextBuffer
    let c := { c with
      nextBuffer := (c.nextBuffer + 1) % c.buffers.length, state := c.state.startFrame }
    match awaitFrame c.state turns with
    | none => none
    | some (.error e, state) => some (.error e, { c with state })
    | some (.ok (), state) =>
      let c := { c with state }
      match state.frameFailed, state.frameFailedRaw with
      | some .bufferConstraints, _ => some (.error .bufferConstraints, c)
      | some .stopped, _ => some (.error .stopped, c)
      | some .unknown, _ => some (.error (.other "capture failed: Unknown"), c)
      | none, some raw => some (.error (.other s!"capture failed with unknown reason {raw}"), c)
      | none, none => some (.ok ⟨state.presentationNs, index⟩, c)

/-- Capture one frame into the next pool buffer, recovering once from `buffer_constraints`. -/
def captureFrame (c : Capture) (script : FrameScript) :
    Option (Except CaptureError FrameTiming × Capture) :=
  match c.tryCaptureFrame script.first with
  | some (.error .bufferConstraints, c) =>
    match c.renegotiate script.constraints script.pool with
    | none => none
    | some (.error e, c) => some (.error e, c)
    | some (.ok (), c) => c.tryCaptureFrame script.second
  | other => other

def dmabuf (c : Capture) (index : Nat) : Option Dmabuf :=
  match c.buffers[index]? with
  | some (.dmabuf backing) => some backing
  | _ => none

end Capture

/-! ## What a pool is made of -/

theorem makeBuffers_ok {β : Type} {make : Nat → Except String β} {n : Nat} {bs : List β}
    (h : makeBuffers make n = .ok bs) :
    bs.length = n ∧ ∀ b ∈ bs, ∃ i, make i = .ok b := by
  induction n generalizing bs with
  | zero => cases h; exact ⟨rfl, nofun⟩
  | succ n ih =>
    rw [makeBuffers] at h
    split at h
    · cases h
    · next bs' hbs =>
      split at h
      · cases h
      · next b hb =>
        cases h
        obtain ⟨hlen, hmem⟩ := ih hbs
        refine ⟨by rw [List.length_append, hlen, List.length_singleton], ?_⟩
        intro x hx
        rcases List.mem_append.1 hx with hx | hx
        · exact hmem x hx
        · rw [List.mem_singleton.1 hx]; exact ⟨n, hb⟩

/-- The DMA-BUFs of a pool: of the size and format the capture now has, each with a modifier GBM
picked from those it was given. -/
structure BuiltDmabufs (c c' : Capture) (answers : PoolAnswers) (modifiers : List UInt64)
    (backings : List Dmabuf) : Prop where
  picked : pickDmabufFormat c.state.caps.dmabufFormats c.allowedModifiers =
    .ok (c'.format, modifiers)
  buffers : c'.buffers = backings.map .dmabuf
  modifier : c'.modifier = backings.getLast?.map Dmabuf.modifier
  backing : ∀ d ∈ backings, d.width = c'.width ∧ d.height = c'.height ∧ d.format = c'.format ∧
    ∃ i, answers.gbm i c'.width c'.height c'.format modifiers = .ok d.modifier

structure Built (c c' : Capture) (answers : PoolAnswers) : Prop where
  size : c.state.caps.bufferSize = some (c'.width, c'.height)
  state : c'.state = { c.state with capsConsumed := true }
  caps : c'.caps = c.state.caps
  mode : c'.mode = c.mode
  poolSize : c'.poolSize = c.poolSize
  allowedModifiers : c'.allowedModifiers = c.allowedModifiers
  nextBuffer : c'.nextBuffer = 0
  length : c'.buffers.length = c.poolSize
  dmabufs : c.mode = .dmabuf → ∃ modifiers backings, BuiltDmabufs c c' answers modifiers backings

structure Unbuilt (c c' : Capture) : Prop where
  size : (c'.width, c'.height) = (c.width, c.height)
  state : c'.state = c.state
  mode : c'.mode = c.mode
  allowedModifiers : c'.allowedModifiers = c.allowedModifiers
  buffers : c'.buffers = []

inductive Allocated (c : Capture) (answers : PoolAnswers) :
    Except CaptureError Unit × Capture → Prop
  | built {c'} (h : Built c c' answers) : Allocated c answers (.ok (), c')
  | failed {e c'} (h : Unbuilt c c') : Allocated c answers (.error e, c')

/-- **`allocate_pool`**, through every way it can end. -/
theorem Capture.allocatePool_spec (c : Capture) (answers : PoolAnswers) :
    Allocated c answers (c.allocatePool answers) := by
  unfold Capture.allocatePool
  cases hsize : c.state.caps.bufferSize with
  | none => simp only [hsize]; exact .failed ⟨rfl, rfl, rfl, rfl, rfl⟩
  | some size =>
    obtain ⟨width, height⟩ := size
    simp only [hsize]
    cases hmode : c.mode with
    | shm =>
      simp only
      cases pickShmFormat c.state.caps.shmFormats with
      | error e => exact .failed ⟨rfl, rfl, hmode.symm, rfl, rfl⟩
      | ok format =>
        simp only
        split
        · exact .failed ⟨rfl, rfl, hmode.symm, rfl, rfl⟩
        · next buffers hbuffers =>
          exact .built ⟨hsize, rfl, rfl, hmode.symm, rfl, rfl, rfl, (makeBuffers_ok hbuffers).1,
            fun h => by rw [hmode] at h; cases h⟩
    | dmabuf =>
      simp only
      cases hpick : pickDmabufFormat c.state.caps.dmabufFormats c.allowedModifiers with
      | error e => exact .failed ⟨rfl, rfl, hmode.symm, rfl, rfl⟩
      | ok picked =>
        obtain ⟨format, modifiers⟩ := picked
        simp only
        cases c.state.caps.dmabufDevice with
        | none => exact .failed ⟨rfl, rfl, hmode.symm, rfl, rfl⟩
        | some dev =>
          simp only
          split
          · exact .failed ⟨rfl, rfl, hmode.symm, rfl, rfl⟩
          · split
            · exact .failed ⟨rfl, rfl, hmode.symm, rfl, rfl⟩
            · next backings hbackings =>
              obtain ⟨hlen, hmem⟩ := makeBuffers_ok hbackings
              refine .built ⟨hsize, rfl, rfl, hmode.symm, rfl, rfl, rfl, ?_, fun _ =>
                ⟨modifiers, backings, hpick, rfl, rfl, fun d hd => ?_⟩⟩
              · simp only [Capture.usePool, List.length_map, hlen]
              · obtain ⟨i, hi⟩ := hmem d hd
                cases hgbm : answers.gbm i width height format modifiers with
                | error e => rw [hgbm] at hi; cases hi
                | ok modifier =>
                  rw [hgbm] at hi
                  cases hi
                  exact ⟨rfl, rfl, rfl, i, hgbm⟩

theorem Capture.allocatePool_ok {c c' : Capture} {answers : PoolAnswers}
    (h : c.allocatePool answers = (.ok (), c')) : Built c c' answers := by
  have hspec := c.allocatePool_spec answers
  rw [h] at hspec
  cases hspec with
  | built hbuilt => exact hbuilt

theorem Capture.allocatePool_error {c c' : Capture} {answers : PoolAnswers} {e : CaptureError}
    (h : c.allocatePool answers = (.error e, c')) : Unbuilt c c' := by
  have hspec := c.allocatePool_spec answers
  rw [h] at hspec
  cases hspec with
  | failed hunbuilt => exact hunbuilt

/-- A capture that was made has negotiated, and built its pool from its configuration. -/
theorem Capture.new_built {config : CaptureConfig} {turns : List Turn} {answers : PoolAnswers}
    {c : Capture} (h : Capture.new config turns answers = some (.ok (), c)) :
    ∃ c₀, awaitNegotiation .default turns = some (.ok (), c₀.state) ∧ c₀.mode = config.mode ∧
      c₀.allowedModifiers = config.allowedModifiers ∧ c₀.poolSize = max config.poolSize 1 ∧
      Built c₀ c answers := by
  unfold Capture.new at h
  simp only at h
  split at h
  · cases h
  · cases h
  · exact ⟨_, ‹_›, rfl, rfl, rfl, Capture.allocatePool_ok (Option.some.inj h)⟩

end PadPlay.CaptureSession
