import PadPlay.Capture.Rotation

/-!
# The Wayland objects of a capture (`capture::session`)

The buffers of a pool, what they are made from, and the frame object of each try live on the
compositor until the capture destroys them. `protocol` is the compositor's side: it refuses a
request about an object that is not there, or not yet, and has room for so many buffers. It does not
look at sizes: what the requests say of lengths, formats and damage is left out. Nothing that a
capture asks for is refused. Its `Drop` leaves the source, for which no request to destroy it is
ever sent, and something of a pool just when the making of one failed half-way
(`requests_accepted`).
-/

namespace PadPlay.CaptureSession

open PadPlay.Lib

/-! ## The protocol -/

/-- An object by the pool it is made for, counted from 1, and the slot. -/
inductive Object where
  | shmPool (build slot : Nat)
  | params (build slot : Nat)
  | buffer (build slot : Nat)
  deriving DecidableEq, Repr

def Object.isBuffer : Object → Bool
  | .buffer .. => true
  | _ => false

inductive Request where
  | createSource
  | createSession
  | createFrame
  | attachBuffer (buffer : Object)
  | damageBuffer
  | capture
  | destroyFrame
  | create (o : Object)
  | destroy (o : Object)
  | destroySession
  deriving DecidableEq, Repr

structure FrameObject where
  attached : Option Object
  captured : Bool
  deriving DecidableEq, Repr

structure Compositor where
  source : Bool
  session : Bool
  frame : Option FrameObject
  live : List Object
  deriving DecidableEq, Repr

/-- A buffer is made from its pool or its parameters; one that a frame has is not destroyed. -/
def protocol (room : Nat) : Machine Compositor Request where
  init := ⟨false, false, none, []⟩
  step
    | w, .createSource => if w.source then none else some { w with source := true }
    | w, .createSession =>
      if w.source ∧ ¬ w.session then some { w with session := true } else none
    | w, .createFrame =>
      -- a second frame object is the error `duplicate_frame`
      if w.session ∧ w.frame = none then some { w with frame := some ⟨none, false⟩ } else none
    | w, .attachBuffer buffer =>
      match w.frame with
      | some ⟨_, false⟩ =>
        if buffer ∈ w.live then some { w with frame := some ⟨some buffer, false⟩ } else none
      | _ => none
    | w, .damageBuffer =>
      match w.frame with
      | some ⟨_, false⟩ => some w
      | _ => none
    | w, .capture =>
      match w.frame with
      | some ⟨some buffer, false⟩ => some { w with frame := some ⟨some buffer, true⟩ }
      | _ => none
    | w, .destroyFrame => if w.frame = none then none else some { w with frame := none }
    | w, .create o =>
      if o ∈ w.live then none
      else
        match o with
        | .buffer build slot =>
          if (.shmPool build slot ∈ w.live ∨ .params build slot ∈ w.live) ∧
              w.live.countP Object.isBuffer < room then
            some { w with live := w.live ++ [o] }
          else none
        | _ => some { w with live := w.live ++ [o] }
    | w, .destroy o =>
      if o ∈ w.live ∧ w.frame.bind FrameObject.attached ≠ some o then
        some { w with live := w.live.erase o }
      else none
    | w, .destroySession => if w.session then some { w with session := false } else none

/-! ## The requests of a capture -/

def PoolBuffer.mode : PoolBuffer → BufferMode
  | .shm .. => .shm
  | .dmabuf _ => .dmabuf

/-- What making the buffer of a slot sends, in `allocate_pool`. -/
def BufferMode.make (build slot : Nat) : BufferMode → List Request
  | .shm => [.create (.shmPool build slot), .create (.buffer build slot)]
  | .dmabuf =>
    [.create (.params build slot), .create (.buffer build slot), .destroy (.params build slot)]

/-- `PoolBuffer::destroy`. -/
def BufferMode.destroy (build slot : Nat) : BufferMode → List Request
  | .shm => [.destroy (.buffer build slot), .destroy (.shmPool build slot)]
  | .dmabuf => [.destroy (.buffer build slot)]

def destroyFrom (build slot : Nat) : List PoolBuffer → List Request
  | [] => []
  | b :: bs => b.mode.destroy build slot ++ destroyFrom build (slot + 1) bs

/-- How many buffers are made before one fails. -/
def slotsMade {β : Type} (make : Nat → Except String β) : Nat → Nat
  | 0 => 0
  | n + 1 =>
    match makeBuffers make n with
    | .error _ => slotsMade make n
    | .ok _ =>
      match make n with
      | .error _ => n
      | .ok _ => n + 1

namespace Capture

/-- How many slots `allocate_pool` makes. -/
def made (c : Capture) (answers : PoolAnswers) : Nat :=
  match c.state.caps.bufferSize with
  | none => 0
  | some (width, height) =>
    match c.mode with
    | .shm =>
      match pickShmFormat c.state.caps.shmFormats with
      | .error _ => 0
      | .ok format =>
        slotsMade (fun i => (answers.shm i).map fun _ => PoolBuffer.shm width height format)
          c.poolSize
    | .dmabuf =>
      match pickDmabufFormat c.state.caps.dmabufFormats c.allowedModifiers with
      | .error _ => 0
      | .ok (format, modifiers) =>
        match c.state.caps.dmabufDevice with
        | none => 0
        | some dev =>
          match if c.allocator = some dev then .ok () else answers.device dev with
          | .error _ => 0
          | .ok () =>
            slotsMade (fun i => (answers.gbm i width height format modifiers).map fun modifier =>
              (⟨width, height, format, modifier⟩ : Dmabuf)) c.poolSize

/-- `allocate_pool`; `build` is the number of the pool it gives up. -/
def requestsAllocate (c : Capture) (build : Nat) (answers : PoolAnswers) : List Request :=
  destroyFrom build 0 c.buffers ++
    (List.range (c.made answers)).flatMap fun slot => c.mode.make (build + 1) slot

/-- `try_capture_frame`. A frame whose waiting fails is not destroyed. -/
def requestsTry (c : Capture) (build : Nat) (turns : List Turn) : List Request :=
  if c.state.sessionStopped then []
  else if c.buffers = [] then []
  else
    [.createFrame, .attachBuffer (.buffer build c.nextBuffer), .damageBuffer, .capture] ++
      match awaitFrame c.state.startFrame turns with
      | some (.ok (), _) => [.destroyFrame]
      | _ => []

/-- Where `renegotiate` comes as far as a new pool. -/
def requestsRenegotiate (c : Capture) (build : Nat) (turns : List Turn) (answers : PoolAnswers) :
    List Request :=
  match awaitDone c.state turns with
  | some (.ok (), state) => { c with state }.requestsAllocate build answers
  | _ => []

/-- `capture_frame`. -/
def requestsFrame (c : Capture) (build : Nat) (script : FrameScript) : List Request :=
  c.requestsTry build script.first ++
    match c.tryCaptureFrame script.first with
    | some (.error .bufferConstraints, c) =>
      c.requestsRenegotiate build script.constraints script.pool ++
        match c.renegotiate script.constraints script.pool with
        | some (.ok (), c) => c.requestsTry (build + 1) script.second
        | _ => []
    | _ => []

/-- The capture whose pool a `capture_frame` call builds anew, if it comes to that. -/
def rebuilding (c : Capture) (script : FrameScript) : Option Capture :=
  match c.tryCaptureFrame script.first with
  | some (.error .bufferConstraints, c) =>
    match awaitDone c.state script.constraints with
    | some (.ok (), state) => some { c with state }
    | _ => none
  | _ => none

def buildAfter (c : Capture) (build : Nat) (script : FrameScript) : Nat :=
  if (c.rebuilding script).isSome then build + 1 else build

/-- `capture_frame` calls, as long as they return, and the capture's `Drop` behind them. -/
def requests (c : Capture) (build : Nat) : List FrameScript → List Request
  | [] => destroyFrom build 0 c.buffers ++ [.destroySession]
  | script :: scripts =>
    c.requestsFrame build script ++
      match c.captureFrame script with
      | some (_, c') => c'.requests (c.buildAfter build script) scripts
      | none => []

/-- What `Capture::new` has sent when it returns a capture. -/
def requestsNew (c : Capture) : List Request :=
  .createSource :: .createSession ::
    (List.range c.poolSize).flatMap fun slot => c.mode.make 1 slot

/-- The call makes some slots of a new pool, and fails at the next. -/
def Strands (c : Capture) (script : FrameScript) : Prop :=
  ∃ c₁ ∈ c.rebuilding script, 0 < c₁.made script.pool ∧ c₁.made script.pool < c₁.poolSize

end Capture

/-! ## The objects of a pool -/

def BufferMode.objects (build slot : Nat) : BufferMode → List Object
  | .shm => [.shmPool build slot, .buffer build slot]
  | .dmabuf => [.buffer build slot]

/-- The objects of `count` slots, in the order they are made. -/
def objectsFrom (mode : BufferMode) (build slot : Nat) : Nat → List Object
  | 0 => []
  | count + 1 => objectsFrom mode build slot count ++ mode.objects build (slot + count)

section
variable {mode : BufferMode} {build slot count : Nat}

theorem objectsFrom_succ : objectsFrom mode build slot (count + 1) =
    mode.objects build slot ++ objectsFrom mode build (slot + 1) count := by
  induction count with
  | zero => simp [objectsFrom]
  | succ count ih =>
    have hslot : slot + (count + 1) = slot + 1 + count := by omega
    rw [objectsFrom, ih, objectsFrom, List.append_assoc, hslot]

theorem mem_objectsFrom {o : Object} (h : o ∈ objectsFrom mode build slot count) :
    ∃ k, slot ≤ k ∧ k < slot + count ∧ (o = .shmPool build k ∨ o = .buffer build k) := by
  induction count with
  | zero => cases h
  | succ count ih =>
    rcases List.mem_append.1 h with h | h
    · obtain ⟨k, hle, hlt, ho⟩ := ih h
      exact ⟨k, hle, by omega, ho⟩
    · refine ⟨slot + count, by omega, by omega, ?_⟩
      cases mode with
      | shm => simpa [BufferMode.objects] using h
      | dmabuf => exact .inr (by simpa [BufferMode.objects] using h)

theorem countP_objectsFrom :
    (objectsFrom mode build slot count).countP Object.isBuffer = count := by
  induction count with
  | zero => rfl
  | succ count ih =>
    rw [objectsFrom, List.countP_append, ih]
    cases mode <;> rfl

theorem buffer_mem_objectsFrom {k : Nat} (hle : slot ≤ k) (hlt : k < slot + count) :
    .buffer build k ∈ objectsFrom mode build slot count := by
  induction count with
  | zero => omega
  | succ count ih =>
    rw [objectsFrom, List.mem_append]
    by_cases heq : k = slot + count
    · subst heq
      right
      cases mode <;> simp [BufferMode.objects]
    · exact .inl (ih (by omega))

end

/-! ## Making and destroying a pool -/

/-- Between two frames. -/
def Compositor.holding (live : List Object) : Compositor := ⟨true, true, none, live⟩

section
variable {room build slot : Nat} {live : List Object} {mode : BufferMode}

theorem step_create {o : Object} (hnew : o ∉ live) (ho : o.isBuffer = false) :
    (protocol room).step (.holding live) (.create o) = some (.holding (live ++ [o])) := by
  cases o with
  | buffer => cases ho
  | _ => simp only [protocol, Compositor.holding, if_neg hnew]

theorem step_createBuffer (hnew : .buffer build slot ∉ live)
    (hparent : .shmPool build slot ∈ live ∨ .params build slot ∈ live)
    (hroom : live.countP Object.isBuffer < room) :
    (protocol room).step (.holding live) (.create (.buffer build slot)) =
      some (.holding (live ++ [.buffer build slot])) := by
  simp only [protocol, Compositor.holding, if_neg hnew]
  exact if_pos ⟨hparent, hroom⟩

theorem step_destroy {o : Object} (ho : o ∈ live) :
    (protocol room).step (.holding live) (.destroy o) = some (.holding (live.erase o)) := by
  simp only [protocol, Compositor.holding]
  exact if_pos ⟨ho, by simp⟩

/-- A slot is made behind the slots before it. -/
theorem run_make (hroom : slot < room) :
    (protocol room).runFrom (.holding (objectsFrom mode build 0 slot)) (mode.make build slot) =
      some (.holding (objectsFrom mode build 0 (slot + 1))) := by
  generalize hlive : objectsFrom mode build 0 slot = live
  have hnew : ∀ o, o = .shmPool build slot ∨ o = .params build slot ∨ o = .buffer build slot →
      o ∉ live := by
    intro o ho hmem
    rw [← hlive] at hmem
    obtain ⟨k, -, hlt, hk⟩ := mem_objectsFrom hmem
    rcases ho with rfl | rfl | rfl <;> simp at hk <;> omega
  have hbuffer := hnew _ (.inr (.inr rfl))
  have hcount : live.countP Object.isBuffer < room := by
    rw [← hlive, countP_objectsFrom]
    exact hroom
  have hobjects : objectsFrom mode build 0 (slot + 1) = live ++ mode.objects build slot := by
    rw [objectsFrom, hlive, Nat.zero_add]
  rw [hobjects]
  cases mode with
  | shm =>
    refine (protocol room).runFrom_cons.2 ⟨_, step_create (hnew _ (.inl rfl)) rfl, ?_⟩
    refine (protocol room).runFrom_cons.2 ⟨_, step_createBuffer ?_ (.inl ?_) ?_, ?_⟩
    · simpa using hbuffer
    · simp
    · rw [List.countP_append]
      exact hcount
    · rw [List.append_assoc]
      rfl
  | dmabuf =>
    refine (protocol room).runFrom_cons.2
      ⟨_, step_create (o := .params build slot) (hnew _ (.inr (.inl rfl))) rfl, ?_⟩
    refine (protocol room).runFrom_cons.2 ⟨_, step_createBuffer ?_ (.inr ?_) ?_, ?_⟩
    · simpa using hbuffer
    · simp
    · rw [List.countP_append]
      exact hcount
    · refine (protocol room).runFrom_cons.2 ⟨_, step_destroy (by simp), ?_⟩
      rw [List.append_assoc, List.erase_append_right _ (hnew _ (.inr (.inl rfl)))]
      simp [BufferMode.objects]

/-- Up to `count` slots of a pool are made while nothing else is there. -/
theorem run_makes {count : Nat} (hroom : count ≤ room) :
    (protocol room).runFrom (.holding [])
        ((List.range count).flatMap fun slot => mode.make build slot) =
      some (.holding (objectsFrom mode build 0 count)) := by
  induction count with
  | zero => rfl
  | succ count ih =>
    rw [List.range_succ, List.flatMap_append, List.flatMap_singleton]
    exact (protocol room).runFrom_append.2 ⟨_, ih (Nat.le_of_succ_le hroom), run_make hroom⟩

/-- The slots of a pool are destroyed, whatever else is there behind them. -/
theorem run_destroy {buffers : List PoolBuffer} (hmode : ∀ b ∈ buffers, b.mode = mode) :
    (protocol room).runFrom (.holding (objectsFrom mode build slot buffers.length))
        (destroyFrom build slot buffers) = some (.holding []) := by
  induction buffers generalizing slot with
  | nil => rfl
  | cons b buffers ih =>
    rw [List.forall_mem_cons] at hmode
    rw [List.length_cons, objectsFrom_succ, destroyFrom, hmode.1]
    refine (protocol room).runFrom_append.2 ⟨_, ?_, ih hmode.2⟩
    cases mode with
    | shm =>
      refine (protocol room).runFrom_cons.2 ⟨_, step_destroy (by simp [BufferMode.objects]), ?_⟩
      refine (protocol room).runFrom_cons.2 ⟨_, step_destroy (by simp [BufferMode.objects]), ?_⟩
      simp [BufferMode.objects]
    | dmabuf =>
      refine (protocol room).runFrom_cons.2 ⟨_, step_destroy (by simp [BufferMode.objects]), ?_⟩
      simp [BufferMode.objects]

end

/-! ## What `allocate_pool` makes -/

theorem slotsMade_spec {β : Type} (make : Nat → Except String β) (n : Nat) :
    (∀ bs, makeBuffers make n = .ok bs → slotsMade make n = n) ∧
      ∀ e, makeBuffers make n = .error e → slotsMade make n < n := by
  induction n with
  | zero => simp [makeBuffers, slotsMade]
  | succ n ih =>
    rw [makeBuffers, slotsMade]
    cases hbs : makeBuffers make n with
    | error e =>
      have hlt : slotsMade make n < n + 1 := Nat.lt_succ_of_lt (ih.2 e hbs)
      simpa using hlt
    | ok bs =>
      cases hb : make n with
      | error e => simp
      | ok b => simp

/-- A pool is made whole, of buffers of the capture's mode, or a slot of it is missing. -/
inductive Made (c : Capture) : Nat → Except CaptureError Unit × Capture → Prop
  | whole {n c'} (hn : n = c.poolSize) (hmode : ∀ b ∈ c'.buffers, b.mode = c.mode) :
    Made c n (.ok (), c')
  | part {n e c'} (hn : n < c.poolSize) : Made c n (.error e, c')

theorem Made.le {c : Capture} {n : Nat} {out : Except CaptureError Unit × Capture}
    (h : Made c n out) : n ≤ c.poolSize := by
  cases h with
  | whole hn => exact Nat.le_of_eq hn
  | part hn => exact Nat.le_of_lt hn

theorem Capture.allocatePool_made {c : Capture} (hpos : 0 < c.poolSize) (answers : PoolAnswers) :
    Made c (c.made answers) (c.allocatePool answers) := by
  unfold allocatePool made
  simp only
  cases c.state.caps.bufferSize with
  | none => exact .part hpos
  | some size =>
    obtain ⟨width, height⟩ := size
    simp only
    cases hmode : c.mode with
    | shm =>
      simp only
      cases pickShmFormat c.state.caps.shmFormats with
      | error e => exact .part hpos
      | ok format =>
        simp only
        split
        · next he => exact .part ((slotsMade_spec _ _).2 _ he)
        · next buffers hbuffers =>
          refine .whole ((slotsMade_spec _ _).1 _ hbuffers) ?_
          intro b hb
          obtain ⟨i, hi⟩ := (makeBuffers_ok hbuffers).2 b hb
          cases hshm : answers.shm i with
          | error e => rw [hshm] at hi; cases hi
          | ok _ => rw [hshm] at hi; cases hi; exact hmode.symm
    | dmabuf =>
      simp only
      cases pickDmabufFormat c.state.caps.dmabufFormats c.allowedModifiers with
      | error e => exact .part hpos
      | ok picked =>
        obtain ⟨format, modifiers⟩ := picked
        simp only
        cases c.state.caps.dmabufDevice with
        | none => exact .part hpos
        | some dev =>
          simp only
          generalize (if c.allocator = some dev then Except.ok () else answers.device dev) = opened
          cases opened with
          | error e => exact .part hpos
          | ok _ =>
            simp only
            split
            · next he => exact .part ((slotsMade_spec _ _).2 _ he)
            · next backings hbackings =>
              refine .whole ((slotsMade_spec _ _).1 _ hbackings) ?_
              intro b hb
              obtain ⟨d, -, rfl⟩ := List.mem_map.1 hb
              exact hmode.symm

/-! ## A call -/

/-- What a capture has on the compositor between two calls: its pool, or what is left of one. -/
structure Serves (room build : Nat) (left : List Object) (c : Capture) (w : Compositor) : Prop where
  rotating : c.Rotating room
  mode : ∀ b ∈ c.buffers, b.mode = c.mode
  objects : w = .holding (left ++ objectsFrom c.mode build 0 c.buffers.length)
  lost : left = [] ∨ c.buffers = []

section
variable {room build : Nat} {left : List Object} {c c' : Capture} {w : Compositor}

theorem Serves.samePool (h : Serves room build left c w) (hrotating : c'.Rotating room)
    (hsame : c.SamePool c') : Serves room build left c' w := by
  obtain ⟨_, _, rfl⟩ := hsame
  exact ⟨hrotating, h.mode, h.objects, h.lost⟩

theorem awaitFrame_ok {s s' : State} {turns : List Turn} {r : Except CaptureError Unit}
    (hdispatch : ∀ turn ∈ turns, ∀ e, turn.events ≠ .error e)
    (h : awaitFrame s turns = some (r, s')) : r = .ok () := by
  fun_induction awaitFrame s turns with
  | case1 => cases h; rfl
  | case2 => cases h
  | case3 => cases h; rfl
  | case4 s turn turns hended e he =>
    exact absurd he (hdispatch turn (List.mem_cons_self ..) e)
  | case5 s turn turns hended events hevents ih =>
    exact ih (fun turn hmem => hdispatch turn (List.mem_cons_of_mem _ hmem)) h

/-- A try that returns has used one frame object, and destroyed it, or has used none. -/
theorem Serves.run_try (h : Serves room build left c w) {turns : List Turn}
    (hdispatch : ∀ turn ∈ turns, ∀ e, turn.events ≠ .error e)
    {out : Except CaptureError FrameTiming × Capture} (hout : c.tryCaptureFrame turns = some out) :
    (protocol room).runFrom w (c.requestsTry build turns) = some w := by
  unfold Capture.requestsTry
  unfold Capture.tryCaptureFrame at hout
  by_cases hstopped : c.state.sessionStopped = true
  · rw [if_pos hstopped]
    rfl
  · rw [if_neg hstopped] at hout ⊢
    by_cases hempty : c.buffers = []
    · rw [if_pos hempty]
      rfl
    · rw [if_neg hempty] at hout ⊢
      obtain ⟨hlen, hlt⟩ := h.rotating.slots.resolve_left hempty
      have hbuffer : .buffer build c.nextBuffer ∈
          left ++ objectsFrom c.mode build 0 c.buffers.length := by
        apply List.mem_append_right
        apply buffer_mem_objectsFrom (Nat.zero_le _)
        omega
      cases hwait : awaitFrame c.state.startFrame turns with
      | none => simp only [hwait] at hout; cases hout
      | some waited =>
        obtain ⟨r, state⟩ := waited
        obtain rfl := awaitFrame_ok hdispatch hwait
        rw [h.objects]
        simp [Machine.runFrom, protocol, Compositor.holding, hbuffer]

/-- `allocate_pool` gives up a whole pool, and makes a whole one or part of one. -/
theorem Serves.run_allocate (h : Serves room build [] c w) (hroom : 0 < room)
    {answers : PoolAnswers} {r : Except CaptureError Unit}
    (halloc : c.allocatePool answers = (r, c')) :
    ∃ w', (protocol room).runFrom w (c.requestsAllocate build answers) = some w' ∧
      ∃ left, Serves room (build + 1) left c' w' ∧
        (left ≠ [] ↔ 0 < c.made answers ∧ c.made answers < c.poolSize) := by
  have hsize := h.rotating.poolSize
  have hpos : 0 < c.poolSize := hsize ▸ hroom
  have hle : c.made answers ≤ room := hsize ▸ (c.allocatePool_made hpos answers).le
  have hrun : (protocol room).runFrom w (c.requestsAllocate build answers) =
      some (.holding (objectsFrom c.mode (build + 1) 0 (c.made answers))) := by
    rw [h.objects]
    exact (protocol room).runFrom_append.2 ⟨_, run_destroy h.mode, run_makes hle⟩
  refine ⟨_, hrun, ?_⟩
  have hmade := c.allocatePool_made hpos answers
  rw [halloc] at hmade
  cases hmade with
  | whole hn hmode =>
    have hbuilt := Capture.allocatePool_ok halloc
    refine ⟨[], ⟨.built hroom hsize hbuilt, ?_, ?_, .inl rfl⟩, ?_⟩
    · rw [hbuilt.mode]
      exact hmode
    · rw [hbuilt.mode, hbuilt.length, hn]
      rfl
    · exact iff_of_false (fun hne => hne rfl) fun hlt => Nat.ne_of_lt hlt.2 hn
  | part hn =>
    have hunbuilt := Capture.allocatePool_error halloc
    refine ⟨objectsFrom c.mode (build + 1) 0 (c.made answers),
      ⟨h.rotating.unbuilt halloc, ?_, ?_, .inr hunbuilt.buffers⟩, ?_⟩
    · rw [hunbuilt.buffers]
      nofun
    · rw [hunbuilt.buffers, List.length_nil]
      exact congrArg _ (List.append_nil _).symm
    · rw [and_iff_left hn]
      cases c.made answers with
      | zero => simp [objectsFrom]
      | succ n =>
        have hmem : .buffer (build + 1) 0 ∈ objectsFrom c.mode (build + 1) 0 (n + 1) :=
          buffer_mem_objectsFrom (Nat.le_refl 0) (by omega)
        exact iff_of_true (List.ne_nil_of_mem hmem) (Nat.succ_pos n)

/-- What a call comes to: no new pool, a new pool and no second try, or both. -/
inductive Called (c : Capture) (build : Nat) (script : FrameScript) :
    Except CaptureError FrameTiming → Capture → Prop
  | kept {r c₁ c'} (hfirst : c.tryCaptureFrame script.first = some (r, c₁)) (hsame : c₁.SamePool c')
    {r' : Except CaptureError FrameTiming} (hno : c.rebuilding script = none)
    (hrequests : c.requestsFrame build script = c.requestsTry build script.first) :
    Called c build script r' c'
  | rebuilt {r c₁ state r' c₂ c'} (hfirst : c.tryCaptureFrame script.first = some (r, c₁))
    (hrebuilding : c.rebuilding script = some { c₁ with state })
    (halloc : { c₁ with state }.allocatePool script.pool = (r', c₂))
    {r'' : Except CaptureError FrameTiming}
    (hend : c' = c₂ ∨ c' = { c₂ with geometryChanged := true })
    (hrequests : c.requestsFrame build script = c.requestsTry build script.first ++
      { c₁ with state }.requestsAllocate build script.pool) :
    Called c build script r'' c'
  | twice {r c₁ state c₂ r' c'} (hfirst : c.tryCaptureFrame script.first = some (r, c₁))
    (hrebuilding : c.rebuilding script = some { c₁ with state })
    (halloc : { c₁ with state }.allocatePool script.pool = (.ok (), c₂))
    (hsecond : c₂.tryCaptureFrame script.second = some (r', c'))
    (hrequests : c.requestsFrame build script = c.requestsTry build script.first ++
      ({ c₁ with state }.requestsAllocate build script.pool ++
        c₂.requestsTry (build + 1) script.second)) :
    Called c build script r' c'

theorem Capture.captureFrame_called {script : FrameScript} {r : Except CaptureError FrameTiming}
    (build : Nat) (h : c.captureFrame script = some (r, c')) : Called c build script r c' := by
  unfold captureFrame at h
  split at h
  · next c₁ hfirst =>
    cases hwait : awaitDone c₁.state script.constraints with
    | none => simp only [renegotiate, hwait] at h; cases h
    | some waited =>
      obtain ⟨r₁, state⟩ := waited
      have hsame : c₁.SamePool { c₁ with state } := ⟨state, c₁.nextBuffer, rfl⟩
      cases r₁ with
      | error e =>
        have hre : c₁.renegotiate script.constraints script.pool =
            some (.error e, { c₁ with state }) := by simp only [renegotiate, hwait]
        rw [hre] at h
        cases h
        refine .kept hfirst hsame ?_ ?_
        · simp only [rebuilding, hfirst, hwait]
        · simp only [requestsFrame, hfirst, requestsRenegotiate, hwait, hre, List.append_nil]
      | ok _ =>
        have hrebuilding : c.rebuilding script = some { c₁ with state } := by
          simp only [rebuilding, hfirst, hwait]
        have hrequests : c₁.requestsRenegotiate build script.constraints script.pool =
            { c₁ with state }.requestsAllocate build script.pool := by
          simp only [requestsRenegotiate, hwait]
        rcases halloc : { c₁ with state }.allocatePool script.pool with ⟨e | ⟨⟩, c₃⟩
        · have hre : c₁.renegotiate script.constraints script.pool = some (.error e, c₃) := by
            simp only [renegotiate, hwait, halloc]
          rw [hre] at h
          cases h
          refine .rebuilt hfirst hrebuilding halloc (.inl rfl) ?_
          simp only [requestsFrame, hfirst, hrequests, hre, List.append_nil]
        · by_cases hsize : (c₃.width, c₃.height) ≠ (c₁.width, c₁.height)
          · have hre : c₁.renegotiate script.constraints script.pool =
                some (.error (geometryError c₁.width c₁.height c₃.width c₃.height),
                  { c₃ with geometryChanged := true }) := by
              simp only [renegotiate, hwait, halloc, if_pos hsize]
            rw [hre] at h
            cases h
            refine .rebuilt hfirst hrebuilding halloc (.inr rfl) ?_
            simp only [requestsFrame, hfirst, hrequests, hre, List.append_nil]
          · have hre : c₁.renegotiate script.constraints script.pool = some (.ok (), c₃) := by
              simp only [renegotiate, hwait, halloc, if_neg hsize]
            rw [hre] at h
            refine .twice hfirst hrebuilding halloc h ?_
            simp only [requestsFrame, hfirst, hrequests, hre]
  · next hother =>
    refine .kept h (.refl c') ?_ ?_
    · rw [rebuilding, h]
      split
      · next c₁ heq => exact absurd (h.trans heq) (hother c₁)
      · rfl
    · rw [requestsFrame, h]
      split
      · next c₁ heq => exact absurd (h.trans heq) (hother c₁)
      · exact List.append_nil _

/-- A new pool is built only where there was one. -/
theorem Capture.buffers_of_rebuilding {script : FrameScript} {c₁ : Capture}
    (h : c.rebuilding script = some c₁) : c.buffers ≠ [] := by
  intro hempty
  rw [rebuilding, tryCaptureFrame, if_pos hempty] at h
  split at h
  · next heq => split at heq <;> cases heq
  · cases h

/-- One call, from one pool to the next. -/
theorem Serves.run_frame (h : Serves room build left c w) (hroom : 0 < room) {script : FrameScript}
    (hdispatch : ∀ turn ∈ script.first ++ script.second, ∀ e, turn.events ≠ .error e)
    {r : Except CaptureError FrameTiming} (hframe : c.captureFrame script = some (r, c')) :
    ∃ w', (protocol room).runFrom w (c.requestsFrame build script) = some w' ∧
      ∃ left', Serves room (c.buildAfter build script) left' c' w' ∧
        (left' = [] ↔ left = [] ∧ ¬ c.Strands script) := by
  rw [List.forall_mem_append] at hdispatch
  have hrotating := Capture.captureFrame_rotating hroom h.rotating hframe
  -- what is there when `allocate_pool` is called behind the first try
  have hserves : ∀ {r₁ c₁ state}, c.tryCaptureFrame script.first = some (r₁, c₁) →
      c.rebuilding script = some { c₁ with state } →
      left = [] ∧ Serves room build [] { c₁ with state } w := by
    intro r₁ c₁ state hfirst hrebuilding
    obtain rfl := h.lost.resolve_right (Capture.buffers_of_rebuilding hrebuilding)
    have hrotating₁ : c₁.Rotating room :=
      (hfirst ▸ c.tryCaptureFrame_tried script.first).rotating hroom h.rotating
    have hsame : c.SamePool { c₁ with state } :=
      (Capture.tryCaptureFrame_spec hfirst).1.trans ⟨state, c₁.nextBuffer, rfl⟩
    exact ⟨rfl, h.samePool (hrotating₁.withState state) hsame⟩
  cases Capture.captureFrame_called build hframe with
  | kept hfirst hsame hno hrequests =>
    rw [hrequests]
    refine ⟨w, h.run_try hdispatch.1 hfirst, left, ?_, ?_⟩
    · rw [Capture.buildAfter, hno]
      exact h.samePool hrotating ((Capture.tryCaptureFrame_spec hfirst).1.trans hsame)
    · simp [Capture.Strands, hno]
  | rebuilt hfirst hrebuilding halloc hend hrequests =>
    obtain ⟨rfl, hbefore⟩ := hserves hfirst hrebuilding
    obtain ⟨w', hrun, left', hafter, hleft⟩ := hbefore.run_allocate hroom halloc
    refine ⟨w', ?_, left', ?_, ?_⟩
    · rw [hrequests]
      exact (protocol room).runFrom_append.2 ⟨w, h.run_try hdispatch.1 hfirst, hrun⟩
    · rw [Capture.buildAfter, hrebuilding]
      rcases hend with rfl | rfl
      · exact hafter
      · exact ⟨hrotating, hafter.mode, hafter.objects, hafter.lost⟩
    · simp only [Capture.Strands, hrebuilding, Option.mem_some_iff, exists_eq_left', ← hleft]
      simp
  | twice hfirst hrebuilding halloc hsecond hrequests =>
    obtain ⟨rfl, hbefore⟩ := hserves hfirst hrebuilding
    obtain ⟨w', hrun, left', hafter, hleft⟩ := hbefore.run_allocate hroom halloc
    refine ⟨w', ?_, left', ?_, ?_⟩
    · rw [hrequests]
      refine (protocol room).runFrom_append.2 ⟨w, h.run_try hdispatch.1 hfirst, ?_⟩
      exact (protocol room).runFrom_append.2 ⟨w', hrun, hafter.run_try hdispatch.2 hsecond⟩
    · rw [Capture.buildAfter, hrebuilding]
      exact hafter.samePool hrotating (Capture.tryCaptureFrame_spec hsecond).1
    · simp only [Capture.Strands, hrebuilding, Option.mem_some_iff, exists_eq_left', ← hleft]
      simp

/-! ## Whole runs -/

theorem Serves.run_requests (h : Serves room build left c w) (hroom : 0 < room) {first : Capture}
    {scripts : List FrameScript} (hdispatch : ∀ script ∈ scripts,
      ∀ turn ∈ script.first ++ script.second, ∀ e, turn.events ≠ .error e)
    (hrun : first.frames.runFrom c scripts = some c') :
    ∃ left', (protocol room).runFrom w (c.requests build scripts) =
        some ⟨true, false, none, left'⟩ ∧
      (left' = [] ↔
        left = [] ∧ first.frames.AlongFrom (fun c script => ¬ c.Strands script) c scripts) := by
  induction scripts generalizing c build left w with
  | nil =>
    refine ⟨left, ?_, by simp [Machine.AlongFrom]⟩
    have hlast : (protocol room).runFrom (.holding left) [.destroySession] =
        some ⟨true, false, none, left⟩ := rfl
    rw [Capture.requests, h.objects]
    rcases h.lost with rfl | hempty
    · exact (protocol room).runFrom_append.2 ⟨_, run_destroy h.mode, hlast⟩
    · rw [hempty, List.length_nil, objectsFrom, List.append_nil]
      exact hlast
  | cons script scripts ih =>
    obtain ⟨c₁, hstep, hrest⟩ := first.frames.runFrom_cons.1 hrun
    obtain ⟨⟨r, c₁⟩, hframe, rfl⟩ := Option.map_eq_some_iff.1 hstep
    rw [List.forall_mem_cons] at hdispatch
    obtain ⟨w₁, hw₁, left₁, hafter, hleft₁⟩ := h.run_frame hroom hdispatch.1 hframe
    obtain ⟨left', hw', hleft'⟩ := ih hafter hdispatch.2 hrest
    refine ⟨left', ?_, ?_⟩
    · rw [Capture.requests, hframe]
      exact (protocol room).runFrom_append.2 ⟨w₁, hw₁, hw'⟩
    · rw [hleft', hleft₁, first.frames.alongFrom_cons_some hstep, and_assoc]

end

theorem Capture.new_serves {config : CaptureConfig} {turns : List Turn} {answers : PoolAnswers}
    {c : Capture} (hnew : Capture.new config turns answers = some (.ok (), c)) :
    ∃ w, (protocol (max config.poolSize 1)).run c.requestsNew = some w ∧
      Serves (max config.poolSize 1) 1 [] c w := by
  have hroom : 0 < max config.poolSize 1 := Nat.lt_of_lt_of_le Nat.zero_lt_one (Nat.le_max_right ..)
  have hrotating := Capture.new_rotating hnew
  unfold Capture.new at hnew
  simp only at hnew
  split at hnew
  · cases hnew
  · cases hnew
  · obtain ⟨c₀, hsize, halloc⟩ : ∃ c₀ : Capture, c₀.poolSize = max config.poolSize 1 ∧
        c₀.allocatePool answers = (.ok (), c) := ⟨_, rfl, Option.some.inj hnew⟩
    have hbuilt := Capture.allocatePool_ok halloc
    have hmade := Capture.allocatePool_made (hsize ▸ hroom) answers
    rw [halloc] at hmade
    cases hmade with
    | whole hn hmode =>
      refine ⟨.holding (objectsFrom c.mode 1 0 c.poolSize), ?_, hrotating, ?_, ?_, .inl rfl⟩
      · refine (protocol _).runFrom_cons.2 ⟨⟨true, false, none, []⟩, rfl, ?_⟩
        refine (protocol _).runFrom_cons.2 ⟨.holding [], rfl, run_makes ?_⟩
        exact Nat.le_of_eq hrotating.poolSize
      · rw [hbuilt.mode]
        exact hmode
      · rw [hbuilt.length, ← hbuilt.poolSize]
        rfl

/-- **The objects of a capture.** Whatever becomes of its frames and its pools, while no dispatch
fails in the wait for a frame: no request of a capture is refused, at most `pool_size` buffers are
there at a time, and `Drop` leaves the source, no session and no frame, and nothing of a pool just
when none was given up after its first slot had been made. -/
theorem requests_accepted {config : CaptureConfig} {turns : List Turn} {answers : PoolAnswers}
    {c c' : Capture} {scripts : List FrameScript}
    (hnew : Capture.new config turns answers = some (.ok (), c))
    (hdispatch : ∀ script ∈ scripts, ∀ turn ∈ script.first ++ script.second, ∀ e,
      turn.events ≠ .error e)
    (hrun : c.frames.run scripts = some c') :
    ∃ left, (protocol (max config.poolSize 1)).run (c.requestsNew ++ c.requests 1 scripts) =
        some ⟨true, false, none, left⟩ ∧
      (left = [] ↔ c.frames.Along (fun c script => ¬ c.Strands script) scripts) := by
  have hroom : 0 < max config.poolSize 1 := Nat.lt_of_lt_of_le Nat.zero_lt_one (Nat.le_max_right ..)
  obtain ⟨w, hw, hserves⟩ := Capture.new_serves hnew
  obtain ⟨left, hleft, hiff⟩ := hserves.run_requests hroom hdispatch hrun
  refine ⟨left, (protocol _).runFrom_append.2 ⟨w, hw, hleft⟩, ?_⟩
  rw [hiff, and_iff_right rfl]
  rfl

instance (c : Capture) (script : FrameScript) : Decidable (c.Strands script) :=
  inferInstanceAs (Decidable (∃ c₁ ∈ c.rebuilding script, _ ∧ _))

/-- A new pool of two slots, of which GBM cannot allocate the second one. -/
def brokenPool : PoolAnswers :=
  { obliging with gbm := fun slot _ _ _ modifiers =>
      if slot = 0 then .ok (modifiers.headD 0) else .error "allocating GBM buffer object" }

/-- The compositor wants other buffers, and their pool cannot be made. -/
def brokenFrame : FrameScript :=
  ⟨[⟨false, .ok (completed (smallBatch 64 48 AR24) ++
    [.frame (.failed (.value .bufferConstraints))])⟩], [], brokenPool, []⟩

/-- The buffer of the first slot is left. -/
theorem requests_accepted_broken :
    ∃ c c' left, Capture.new ⟨.dmabuf, 2, [0]⟩
        [⟨false, .ok (completed (smallBatch 64 48 XR24))⟩] obliging = some (.ok (), c) ∧
      c.frames.run [readyFrame, brokenFrame, readyFrame] = some c' ∧
      (protocol 2).run (c.requestsNew ++ c.requests 1 [readyFrame, brokenFrame, readyFrame]) =
        some ⟨true, false, none, left⟩ ∧
      left ≠ [] := by
  obtain ⟨c, c', hnew, hrun, hstrands⟩ : ∃ c c', Capture.new ⟨.dmabuf, 2, [0]⟩
        [⟨false, .ok (completed (smallBatch 64 48 XR24))⟩] obliging = some (.ok (), c) ∧
      c.frames.run [readyFrame, brokenFrame, readyFrame] = some c' ∧
      ¬ c.frames.Along (fun c script => ¬ c.Strands script)
        [readyFrame, brokenFrame, readyFrame] := ⟨_, _, rfl, rfl, by decide⟩
  obtain ⟨left, haccepted, hleft⟩ := requests_accepted hnew (by simp [readyFrame, brokenFrame]) hrun
  exact ⟨c, c', left, hnew, hrun, haccepted, fun h => hstrands (hleft.1 h)⟩

end PadPlay.CaptureSession
