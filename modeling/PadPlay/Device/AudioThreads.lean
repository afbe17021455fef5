import Mathlib.Logic.Function.Basic
import PadPlay.Lib.Machine
import PadPlay.Device.AudioStream

/-!
# The audio threads of the device (`AudioStream.kt`)

`AudioStream` is called from the user interface (`start`, `stop`) and from the loop that reads the
connection (`onStreamHeader`, `onSessionEnded`), and starts two threads for each session: one copies
what the decoder puts out into `pendingPcm`, one writes `pendingPcm` to the track. `teardown` only
interrupts the two: they may be anywhere in their loops when the next session's threads start, on
the same queue.

Here a statement of the source is a step, and any number of callers and threads take their steps in
any order. What one `configure` makes (decoder, track, two threads) carries the number of that
set-up. `teardown` and `configure` do the same to four fields: they settle what the field holds
(release it, or interrupt it) and forget it, or create something and store it. So one pair of steps
stands for the four.
-/

namespace PadPlay.Device.AudioThreads

open PadPlay.Lib PadPlay.Device.Protocol
open PadPlay.Device.AudioStream (shown)

/-! ## State -/

/-- The fields that hold something a set-up made, in the order `teardown` goes through them. -/
inductive Field where
  | writerThread
  | outputDrainThread
  | codec
  | track
  deriving DecidableEq, Repr

def Field.all : List Field := [.writerThread, .outputDrainThread, .codec, .track]

/-- A decoder's output, tagged with the decoder. -/
structure Chunk where
  setUp : Nat
  pcm : List UInt8
  deriving DecidableEq, Repr

/-- A chunk that a writer took off the queue. -/
structure Taken where
  writer : Nat
  chunk : Chunk
  deriving DecidableEq, Repr

/-- Where the thread that drains a decoder is. -/
inductive DrainAt where
  | checking
  | dequeuing
  | offering (pcm : List UInt8)
  | releasing
  | ended
  deriving DecidableEq, Repr

/-- Where a thread that writes to a track is. -/
inductive WriterAt where
  | checking
  | polling
  | writing (pcm : List UInt8) (written : Nat)
  | ended
  deriving DecidableEq, Repr

/-- A statement of a call. -/
inductive Stmt where
  /-- `if (running) return; running = true; phase = Phase.Waiting` -/
  | unlessRunning
  | running (value : Bool)
  | phase (phase : Phase)
  | lastError (message : Option String)
  /-- `interrupt()` a thread, `stop()` and `release()` a decoder or a track, if there is one -/
  | settle (x : Field)
  | forget (x : Field)
  | clearPcm
  /-- `if (!running || !header.hasAudio) { phase = Phase.Waiting; return }` -/
  | acceptHeader (header : StreamHeader)
  | channels (channels : Int32)
  | create (x : Field) (setUp : Nat)
  /-- a platform call that makes nothing but can throw -/
  | attempt (setUp : Nat)
  | store (x : Field) (setUp : Nat)
  /-- `pendingPcm.clear()` before the threads start -/
  | resetPcm (setUp : Nat)
  deriving DecidableEq, Repr

/-- `AudioStream` with the threads it started, the calls in progress, and logs of what was done. -/
structure Player where
  running : Bool
  held : Field → Option Nat
  channels : Int32
  pendingPcm : List Chunk
  phase : Phase
  lastError : Option String
  setUps : Nat
  drains : Nat → DrainAt
  writers : Nat → WriterAt
  /-- what is left of the call each caller is in -/
  calls : Nat → List Stmt
  begun : Field → Nat → Bool
  /-- released, or interrupted -/
  settled : Field → Nat → Bool
  /-- every release and every interrupt, in the order they were done -/
  releases : List (Field × Nat)
  /-- made, but an exception came before it was stored -/
  abandoned : Field → Nat → Bool
  offered : List Chunk
  taken : List Taken
  /-- what each track accepted -/
  played : Nat → List UInt8

def init : Player where
  running := false
  held := fun _ => none
  channels := 1
  pendingPcm := []
  phase := .waiting
  lastError := none
  setUps := 0
  drains := fun _ => .ended
  writers := fun _ => .ended
  calls := fun _ => []
  begun := fun _ _ => false
  settled := fun _ _ => false
  releases := []
  abandoned := fun _ _ => false
  offered := []
  taken := []
  played := fun _ => []

/-! ## The calls -/

def teardown : List Stmt :=
  [.settle .writerThread, .forget .writerThread, .settle .outputDrainThread,
    .forget .outputDrainThread, .settle .codec, .forget .codec, .settle .track, .forget .track,
    .clearPcm]

/-- `try { configure(header); phase = Phase.Streaming }`. -/
def configure (header : StreamHeader) (k : Nat) : List Stmt :=
  [.channels header.audioChannels,
    .attempt k, -- the format: `codecDelayNs` divides by the sample rate
    .create .codec k, .attempt k, .attempt k, -- `createDecoderByType`, `configure`, `start`
    .store .codec k, .attempt k, -- `codec.name`, for the log
    .attempt k, .create .track k, -- `getMinBufferSize` has to be positive; `build`
    .attempt k, .store .track k, -- `play`
    .resetPcm k, .create .outputDrainThread k, .store .outputDrainThread k,
    .create .writerThread k, .store .writerThread k, .phase .streaming]

/-- `catch (e: Exception)` around it. -/
def configureFailed (message : Option String) : List Stmt :=
  .lastError message :: .phase (.disconnected message) :: teardown

inductive Call where
  | start
  | stop
  | onStreamHeader (header : StreamHeader)
  | onSessionEnded
  deriving DecidableEq, Repr

def Call.body : Call → List Stmt
  | start => [.unlessRunning]
  | stop => .running false :: teardown ++ [.phase (.disconnected none)]
  | onStreamHeader header => teardown ++ [.acceptHeader header]
  | onSessionEnded => teardown ++ [.phase .waiting]

/-! ## Steps -/

/-- One more set. -/
def mark (f : Field → Nat → Bool) (x : Field) (k : Nat) : Field → Nat → Bool := fun x' k' =>
  f x' k' || decide (x' = x ∧ k' = k)

namespace Player

/-- A caller goes on with these statements. -/
def goOn (s : Player) (t : Nat) (rest : List Stmt) : Player :=
  { s with calls := Function.update s.calls t rest }

@[simp] theorem goOn_calls (s : Player) (t : Nat) (rest : List Stmt) :
    (s.goOn t rest).calls = Function.update s.calls t rest := rfl

/-- Something is made; a thread starts at the top of its loop. -/
def create (s : Player) (x : Field) (k : Nat) : Player :=
  match x with
  | .outputDrainThread =>
    { s with begun := mark s.begun x k, drains := Function.update s.drains k .checking }
  | .writerThread =>
    { s with begun := mark s.begun x k, writers := Function.update s.writers k .checking }
  | .codec | .track => { s with begun := mark s.begun x k }

def settle (s : Player) (x : Field) : Player :=
  match s.held x with
  | none => s
  | some k => { s with settled := mark s.settled x k, releases := s.releases ++ [(x, k)] }

/-- Caller `t` executes a statement, with `rest` behind it. -/
def exec (s : Player) (t : Nat) (stmt : Stmt) (rest : List Stmt) : Player :=
  match stmt with
  | .unlessRunning =>
    if s.running then s.goOn t [] else s.goOn t [.running true, .phase .waiting]
  | .running value => { s with running := value }.goOn t rest
  | .phase phase => { s with phase }.goOn t rest
  | .lastError message => { s with lastError := message }.goOn t rest
  | .settle x => (s.settle x).goOn t rest
  | .forget x => { s with held := Function.update s.held x none }.goOn t rest
  | .clearPcm | .resetPcm _ => { s with pendingPcm := [] }.goOn t rest
  | .acceptHeader header =>
    if !s.running || !header.hasAudio then s.goOn t [.phase .waiting]
    else
      { s with setUps := s.setUps + 1 }.goOn t (.phase .connecting :: configure header s.setUps)
  | .channels channels => { s with channels }.goOn t rest
  | .create x k => (s.create x k).goOn t rest
  | .attempt _ => s.goOn t rest
  | .store x k => { s with held := Function.update s.held x (some k) }.goOn t rest

end Player

/-- What can throw: making a decoder or a track, and the platform calls that only set them up. -/
def Stmt.throws : Stmt → Bool
  | .create .codec _ | .create .track _ | .attempt _ => true
  | _ => false

namespace Player

/-- The statement throws instead: what was made and is still to be stored is lost. -/
def raise (s : Player) (t : Nat) (rest : List Stmt) (message : Option String) : Player :=
  let lost := fun x k => s.begun x k && decide (.store x k ∈ rest)
  { s with abandoned := fun x k => s.abandoned x k || lost x k }.goOn t (configureFailed message)

end Player

/-- What `dequeueOutputBuffer`, `getOutputBuffer` and `get` come to. -/
inductive Dequeued where
  /-- nothing yet, or a change of the output format -/
  | nothing
  /-- a buffer, which `getOutputBuffer` may not hand out -/
  | buffer (pcm : Option (List UInt8))
  | throws (message : Option String)
  deriving DecidableEq, Repr

/-- What `pendingPcm.poll` comes to. An interrupt may be seen at once or only when the thread
waits. -/
inductive Polled where
  | head
  | timeout
  | interrupted (message : Option String)
  deriving DecidableEq, Repr

inductive Written where
  | returns (n : Int32)
  | throws (message : Option String)
  deriving DecidableEq, Repr

namespace Player

def setDrain (s : Player) (k : Nat) (at' : DrainAt) : Player :=
  { s with drains := Function.update s.drains k at' }

def setWriter (s : Player) (k : Nat) (at' : WriterAt) : Player :=
  { s with writers := Function.update s.writers k at' }

/-- The thread ends in its `catch`. -/
def drainFails (s : Player) (k : Nat) (message : Option String) : Player :=
  { s with lastError := some s!"audio decoder: {shown message}" }.setDrain k .ended

def writerFails (s : Player) (k : Nat) (message : Option String) : Player :=
  { s with lastError := some s!"audio writer: {shown message}" }.setWriter k .ended

/-- `while (running && !Thread.currentThread().isInterrupted)` -/
def drainCheck (s : Player) (k : Nat) : Option Player :=
  if s.drains k = .checking then
    let goesOn := s.running && !s.settled .outputDrainThread k
    some (s.setDrain k (if goesOn then .dequeuing else .ended))
  else none

def drainDequeue (s : Player) (k : Nat) (answer : Dequeued) : Option Player :=
  if s.drains k = .dequeuing then
    match answer with
    | .nothing => some (s.setDrain k .checking)
    | .buffer none => some (s.setDrain k .releasing)
    | .buffer (some pcm) =>
      some (s.setDrain k (if 0 < pcm.length then .offering pcm else .releasing))
    | .throws message => some (s.drainFails k message)
  else none

def drainOffer (s : Player) (k : Nat) : Option Player :=
  match s.drains k with
  | .offering pcm =>
    let chunk : Chunk := ⟨k, pcm⟩
    some ({ s with
      pendingPcm := s.pendingPcm ++ [chunk]
      offered := s.offered ++ [chunk] }.setDrain k .releasing)
  | _ => none

/-- `codec.releaseOutputBuffer`, which may throw. -/
def drainRelease (s : Player) (k : Nat) (throws : Option (Option String)) : Option Player :=
  if s.drains k = .releasing then
    match throws with
    | none => some (s.setDrain k .checking)
    | some message => some (s.drainFails k message)
  else none

def writerCheck (s : Player) (k : Nat) : Option Player :=
  if s.writers k = .checking then
    let goesOn := s.running && !s.settled .writerThread k
    some (s.setWriter k (if goesOn then .polling else .ended))
  else none

def writerPoll (s : Player) (k : Nat) (answer : Polled) : Option Player :=
  if s.writers k = .polling then
    match answer, s.pendingPcm with
    | .head, chunk :: pendingPcm =>
      let taken : Taken := ⟨k, chunk⟩
      some ({ s with pendingPcm, taken := s.taken ++ [taken] }.setWriter k (.writing chunk.pcm 0))
    | .timeout, [] => some (s.setWriter k .checking)
    | .interrupted message, _ =>
      if s.settled .writerThread k then some (s.writerFails k message) else none
    | _, _ => none
  else none

/-- `track.write` inside `while (written < pcm.size)`. -/
def writerWrite (s : Player) (k : Nat) (answer : Written) : Option Player :=
  match s.writers k with
  | .writing pcm written =>
    if written < pcm.length then
      match answer with
      | .throws message => some (s.writerFails k message)
      | .returns n =>
        if n < 0 then some (s.writerFails k (some s!"AudioTrack.write failed: {n}"))
        else if n.toNatClampNeg ≤ pcm.length - written then
          some ({ s with
            played := Function.update s.played k
              (s.played k ++ (pcm.drop written).take n.toNatClampNeg) }.setWriter k
                (.writing pcm (written + n.toNatClampNeg)))
        else none
    else none
  | _ => none

/-- The chunk is written: `samplesPlayed += pcm.size / (2 * channels)`, where the division may be by
zero. -/
def writerCount (s : Player) (k : Nat) (message : Option String) : Option Player :=
  match s.writers k with
  | .writing pcm written =>
    if written < pcm.length then none
    else if 2 * s.channels = 0 then some (s.writerFails k message)
    else some (s.setWriter k .checking)
  | _ => none

end Player

inductive Action where
  | call (t : Nat) (call : Call)
  | next (t : Nat)
  | throws (t : Nat) (message : Option String)
  | drainCheck (k : Nat)
  | drainDequeue (k : Nat) (answer : Dequeued)
  | drainOffer (k : Nat)
  | drainRelease (k : Nat) (throws : Option (Option String))
  | writerCheck (k : Nat)
  | writerPoll (k : Nat) (answer : Polled)
  | writerWrite (k : Nat) (answer : Written)
  | writerCount (k : Nat) (message : Option String)
  deriving DecidableEq, Repr

def step (s : Player) : Action → Option Player
  | .call t call => if s.calls t = [] then some (s.goOn t call.body) else none
  | .next t =>
    match s.calls t with
    | [] => none
    | stmt :: rest => some (s.exec t stmt rest)
  | .throws t message =>
    match s.calls t with
    | [] => none
    | stmt :: rest => if stmt.throws then some (s.raise t rest message) else none
  | .drainCheck k => s.drainCheck k
  | .drainDequeue k answer => s.drainDequeue k answer
  | .drainOffer k => s.drainOffer k
  | .drainRelease k throws => s.drainRelease k throws
  | .writerCheck k => s.writerCheck k
  | .writerPoll k answer => s.writerPoll k answer
  | .writerWrite k answer => s.writerWrite k answer
  | .writerCount k message => s.writerCount k message

def machine : Machine Player Action := ⟨init, step⟩

/-! ## What a step does -/

/-- A step of one of the two threads of a set-up. -/
inductive Threaded (s : Player) : Player → Prop
  /-- the drain goes on, or ends -/
  | drains {k a lastError} (hfrom : s.drains k ≠ .ended)
    (hoffered : ∀ pcm, s.drains k ≠ .offering pcm)
    (hchecked : a = .dequeuing → s.drains k = .checking ∧ s.settled .outputDrainThread k = false)
    (hdequeued : ∀ pcm, a = .offering pcm → s.drains k = .dequeuing) :
    Threaded s { s with lastError, drains := Function.update s.drains k a }
  | offers {k pcm} (hfrom : s.drains k = .offering pcm) :
    Threaded s { s with
      drains := Function.update s.drains k .releasing
      pendingPcm := s.pendingPcm ++ [⟨k, pcm⟩]
      offered := s.offered ++ [⟨k, pcm⟩] }
  /-- the writer goes on, or ends -/
  | goesOn {k a lastError} (hfrom : s.writers k ≠ .ended)
    (hchecked : a = .polling → s.writers k = .checking ∧ s.settled .writerThread k = false)
    (hpolled : ∀ pcm written, a ≠ .writing pcm written)
    (hwritten : ∀ pcm written, s.writers k = .writing pcm written → a ≠ .ended →
      pcm.length ≤ written) :
    Threaded s { s with lastError, writers := Function.update s.writers k a }
  | takes {k chunk pendingPcm} (hfrom : s.writers k = .polling)
    (hpending : s.pendingPcm = chunk :: pendingPcm) :
    Threaded s { s with
      writers := Function.update s.writers k (.writing chunk.pcm 0)
      pendingPcm
      taken := s.taken ++ [⟨k, chunk⟩] }
  | writes {k pcm written n} (hfrom : s.writers k = .writing pcm written)
    (hn : n ≤ pcm.length - written) (hmore : written < pcm.length) :
    Threaded s { s with
      writers := Function.update s.writers k (.writing pcm (written + n))
      played := Function.update s.played k (s.played k ++ (pcm.drop written).take n) }

namespace Player

variable {s s' : Player} {k : Nat}

theorem drainCheck_cases (h : s.drainCheck k = some s') : Threaded s s' := by
  unfold drainCheck at h
  split at h
  · next hat =>
    cases h
    refine .drains (by simp [hat]) (by simp [hat]) ?_ ?_
    · intro hdeq
      refine ⟨hat, ?_⟩
      by_contra hsettled
      simp [hsettled] at hdeq
    · intro pcm hoffer
      split at hoffer <;> cases hoffer
  · cases h

theorem drainDequeue_cases {answer : Dequeued} (h : s.drainDequeue k answer = some s') :
    Threaded s s' := by
  unfold drainDequeue at h
  split at h
  · next hat =>
    have hfrom : s.drains k ≠ .ended := by simp [hat]
    have hnot : ∀ pcm, s.drains k ≠ .offering pcm := by simp [hat]
    cases answer with
    | nothing => cases h; exact .drains hfrom hnot nofun nofun
    | throws message => cases h; exact .drains hfrom hnot nofun nofun
    | buffer buffer =>
      cases buffer with
      | none => cases h; exact .drains hfrom hnot nofun nofun
      | some pcm =>
        cases h
        refine .drains hfrom hnot ?_ fun _ _ => hat
        intro hdeq
        split at hdeq <;> cases hdeq
  · cases h

theorem drainOffer_cases (h : s.drainOffer k = some s') : Threaded s s' := by
  unfold drainOffer at h
  split at h
  · next pcm hat => cases h; exact .offers hat
  · cases h

theorem drainRelease_cases {throws : Option (Option String)}
    (h : s.drainRelease k throws = some s') : Threaded s s' := by
  unfold drainRelease at h
  split at h
  · next hat =>
    have hfrom : s.drains k ≠ .ended := by simp [hat]
    have hnot : ∀ pcm, s.drains k ≠ .offering pcm := by simp [hat]
    cases throws <;> cases h <;> exact .drains hfrom hnot nofun nofun
  · cases h

theorem writerCheck_cases (h : s.writerCheck k = some s') : Threaded s s' := by
  unfold writerCheck at h
  split at h
  · next hat =>
    cases h
    refine .goesOn (by simp [hat]) ?_ ?_ (by simp [hat])
    · intro hpoll
      refine ⟨hat, ?_⟩
      by_contra hsettled
      simp [hsettled] at hpoll
    · intro pcm written hwriting
      split at hwriting <;> cases hwriting
  · cases h

theorem writerPoll_cases {answer : Polled} (h : s.writerPoll k answer = some s') :
    Threaded s s' := by
  unfold writerPoll at h
  split at h
  · next hat =>
    have hfrom : s.writers k ≠ .ended := by simp [hat]
    split at h
    · next chunk pendingPcm hpending => cases h; exact .takes hat hpending
    · cases h; exact .goesOn hfrom nofun nofun (by simp [hat])
    · split at h
      · cases h; exact .goesOn hfrom nofun nofun (by simp [hat])
      · cases h
    · cases h
  · cases h

theorem writerWrite_cases {answer : Written} (h : s.writerWrite k answer = some s') :
    Threaded s s' := by
  unfold writerWrite at h
  split at h
  · next pcm written hat =>
    have hfrom : s.writers k ≠ .ended := by simp [hat]
    split at h
    · next hmore =>
      split at h
      · cases h; exact .goesOn hfrom nofun nofun (by simp)
      · split at h
        · cases h; exact .goesOn hfrom nofun nofun (by simp)
        · split at h
          · next hn => cases h; exact .writes hat hn hmore
          · cases h
    · cases h
  · cases h

theorem writerCount_cases {message : Option String} (h : s.writerCount k message = some s') :
    Threaded s s' := by
  unfold writerCount at h
  split at h
  · next pcm written hat =>
    have hfrom : s.writers k ≠ .ended := by simp [hat]
    split at h
    · cases h
    · next hdone =>
      split at h
      · cases h; exact .goesOn hfrom nofun nofun (by simp)
      · cases h
        refine .goesOn hfrom nofun nofun ?_
        intro pcm' written' hat' _
        rw [hat] at hat'
        cases hat'
        exact Nat.le_of_not_lt hdone
  · cases h

end Player

inductive Steps (s : Player) : Player → Prop
  | calls {t} (call : Call) (hidle : s.calls t = []) : Steps s (s.goOn t call.body)
  | executes {t stmt rest} (hcalls : s.calls t = stmt :: rest) : Steps s (s.exec t stmt rest)
  | raises {t stmt rest} (message : Option String) (hcalls : s.calls t = stmt :: rest)
    (hthrows : stmt.throws) : Steps s (s.raise t rest message)
  | threads {s'} (h : Threaded s s') : Steps s s'

theorem step_cases {s s' : Player} {a : Action} (h : step s a = some s') : Steps s s' := by
  cases a with
  | call t call =>
    simp only [step] at h
    split at h
    · next hidle => cases h; exact .calls call hidle
    · cases h
  | next t =>
    simp only [step] at h
    split at h
    · cases h
    · next hcalls => cases h; exact .executes hcalls
  | throws t message =>
    simp only [step] at h
    split at h
    · cases h
    · next hcalls =>
      split at h
      · next hthrows => cases h; exact .raises message hcalls hthrows
      · cases h
  | drainCheck k => exact .threads (Player.drainCheck_cases h)
  | drainDequeue k answer => exact .threads (Player.drainDequeue_cases h)
  | drainOffer k => exact .threads (Player.drainOffer_cases h)
  | drainRelease k throws => exact .threads (Player.drainRelease_cases h)
  | writerCheck k => exact .threads (Player.writerCheck_cases h)
  | writerPoll k answer => exact .threads (Player.writerPoll_cases h)
  | writerWrite k answer => exact .threads (Player.writerWrite_cases h)
  | writerCount k message => exact .threads (Player.writerCount_cases h)

end PadPlay.Device.AudioThreads
