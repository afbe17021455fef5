import PadPlay.Capture.Rotation
import PadPlay.Daemon.Freshness

/-!
# The buffers of frames on their way to the encoder

On the Wayland path a frame is not copied: `push_frame` hands the encoder the DMA-BUF of a pool
slot, and the capture goes on to write to the pool's other slots. `sharing` puts the capture's slots
in front of the pipeline, so that the compositor can write while the pipeline's thread reads. The
thread reads one frame at a time, the newest of those in the elements, until it is converted. A
frame that waits for the thread is never written to, but one that the thread reads is, as soon as
the capture has come round to its slot (`torn_iff`).
-/

namespace PadPlay.Daemon.Streaming

open PadPlay.Lib PadPlay.CaptureSession

/-! ## The machine -/

/-- A DMA-BUF: the pool it is of, and its slot. -/
structure SlotBuffer where
  pool : Nat
  slot : Nat
  deriving DecidableEq, Repr

structure Sharing where
  pipeline : Live
  /-- how many pools were given up -/
  pool : Nat
  /-- how many frames were captured into them -/
  first : Nat
  nextBuffer : Nat
  /-- the buffer attached to the frame object -/
  writing : Option SlotBuffer
  /-- the buffer of each frame that was captured -/
  homes : List SlotBuffer
  /-- the pipeline's thread has not finished with the buffer of the frame it took last -/
  reading : Bool
  deriving DecidableEq, Repr

inductive SharingAction where
  /-- a step of the pipeline or the session that captures nothing -/
  | live (a : LiveAction)
  /-- `attach_buffer`, the frame's `ready`, or a new pool -/
  | slot (e : SlotEvent)
  /-- `vapostproc` has converted the frame -/
  | converts
  deriving DecidableEq, Repr

def LiveAction.captures : LiveAction → Bool
  | .session a => a.captures
  | _ => false

/-- The thread reads a frame's buffer from when it takes the frame until the frame is converted. -/
def Sharing.readingAfter (s : Sharing) : LiveAction → Bool
  | .takes => true
  | _ => s.reading

/-- The thread takes no other frame, and a frame is not put out, before it is converted. -/
def Sharing.mustConvert (s : Sharing) : LiveAction → Prop
  | .takes => s.reading = true
  | .encodes => s.reading = true ∧ s.pipeline.encoding.length = 1
  | .session _ => False

instance (s : Sharing) (a : LiveAction) : Decidable (s.mustConvert a) := by
  cases a <;> unfold Sharing.mustConvert <;> infer_instance

def sharing (gst : Gst) (slots : Nat) (packets : Nat → EncodedPacket) :
    Machine Sharing SharingAction where
  init := ⟨(live gst packets).init, 0, 0, 0, none, [], false⟩
  step
    | s, .live a =>
      if a.captures ∨ s.mustConvert a then none
      else ((live gst packets).step s.pipeline a).map fun pipeline =>
        { s with pipeline, reading := s.readingAfter a }
    | s, .slot (.taken slot) =>
      if s.pipeline.session.pacing = .capturing ∧ s.writing = none ∧ slot = s.nextBuffer then
        some { s with writing := some ⟨s.pool, slot⟩, nextBuffer := (slot + 1) % slots }
      else none
    | s, .slot (.returned slot) =>
      if s.writing = some ⟨s.pool, slot⟩ then
        ((live gst packets).step s.pipeline (.session (.pacing (.capture true)))).map
          fun pipeline => { s with pipeline, writing := none, homes := s.homes ++ [⟨s.pool, slot⟩] }
      else none
    | s, .slot .renewed =>
      if s.writing = none then none
      else some { s with
        pool := s.pool + 1, first := s.pipeline.captured, nextBuffer := 0, writing := none }
    | s, .converts => if s.reading then some { s with reading := false } else none

section
variable {gst : Gst} {slots : Nat} {packets : Nat → EncodedPacket} {s s' : Sharing}
  {a : SharingAction}

inductive SharingStep (gst : Gst) (slots : Nat) (packets : Nat → EncodedPacket) (s : Sharing) :
    Sharing → Prop
  | lives {a : LiveAction} {live' : Live} (hno : a.captures = false)
      (hconverted : ¬ s.mustConvert a)
      (hlive : (live gst packets).step s.pipeline a = some live') :
      SharingStep gst slots packets s
        { s with pipeline := live', reading := s.readingAfter a }
  | attaches (hcapturing : s.pipeline.session.pacing = .capturing) (hfree : s.writing = none) :
      SharingStep gst slots packets s { s with
        writing := some ⟨s.pool, s.nextBuffer⟩, nextBuffer := (s.nextBuffer + 1) % slots }
  | captures {slot : Nat} {live' : Live} (hwriting : s.writing = some ⟨s.pool, slot⟩)
      (hlive : (live gst packets).step s.pipeline (.session (.pacing (.capture true))) =
        some live') :
      SharingStep gst slots packets s
        { s with pipeline := live', writing := none, homes := s.homes ++ [⟨s.pool, slot⟩] }
  | renews (hwriting : s.writing ≠ none) :
      SharingStep gst slots packets s { s with
        pool := s.pool + 1, first := s.pipeline.captured, nextBuffer := 0, writing := none }
  | converts (hreading : s.reading = true) :
      SharingStep gst slots packets s { s with reading := false }

theorem sharing_cases (hs : (sharing gst slots packets).step s a = some s') :
    SharingStep gst slots packets s s' := by
  cases a with
  | live a =>
    simp only [sharing] at hs
    split at hs
    · cases hs
    · next hno =>
      obtain ⟨live', hlive, rfl⟩ := Option.map_eq_some_iff.1 hs
      rw [not_or, Bool.not_eq_true] at hno
      exact .lives hno.1 hno.2 hlive
  | slot e =>
    cases e with
    | taken slot =>
      simp only [sharing] at hs
      split at hs
      · next h =>
        obtain ⟨hcapturing, hfree, rfl⟩ := h
        cases hs
        exact .attaches hcapturing hfree
      · cases hs
    | returned slot =>
      simp only [sharing] at hs
      split at hs
      · next hwriting =>
        obtain ⟨live', hlive, rfl⟩ := Option.map_eq_some_iff.1 hs
        exact .captures hwriting hlive
      · cases hs
    | renewed =>
      simp only [sharing] at hs
      split at hs
      · cases hs
      · next hwriting => cases hs; exact .renews hwriting
  | converts =>
    simp only [sharing] at hs
    split at hs
    · next hreading => cases hs; exact .converts hreading
    · cases hs

end

/-- The compositor writes to the buffer that the pipeline's thread reads. -/
def Sharing.Torn (s : Sharing) : Prop :=
  s.reading = true ∧ ∃ frame ∈ s.pipeline.encoding.getLast?, ∃ buffer ∈ s.writing,
    s.homes[frame]? = some buffer

/-! ## Where the frames are -/

/-- The pipeline inside is one that a run of it reaches. -/
def Sharing.Lives (gst : Gst) (packets : Nat → EncodedPacket) (s : Sharing) : Prop :=
  ∃ inner, (live gst packets).run inner = some s.pipeline

/-- The frames of the pool in use have its slots in turn, and the next one's turn it is. -/
structure Housed (slots : Nat) (s : Sharing) : Prop where
  captured : s.homes.length = s.pipeline.captured
  first : s.first ≤ s.pipeline.captured
  older : ∀ frame < s.first, ∀ home ∈ s.homes[frame]?, home.pool < s.pool
  newer : ∀ frame, s.first ≤ frame → frame < s.pipeline.captured →
    s.homes[frame]? = some ⟨s.pool, (frame - s.first) % slots⟩
  next : s.writing = none → s.nextBuffer = (s.pipeline.captured - s.first) % slots
  writing : ∀ buffer ∈ s.writing, buffer = ⟨s.pool, (s.pipeline.captured - s.first) % slots⟩ ∧
    s.nextBuffer = (s.pipeline.captured - s.first + 1) % slots

section
variable {gst : Gst} {slots : Nat} {packets : Nat → EncodedPacket} {s s' : Sharing}
  {a : SharingAction}

theorem Live.captured_step {t t' : Live} {a : LiveAction} (ha : a.captures = false)
    (hs : (live gst packets).step t a = some t') : t'.captured = t.captured := by
  cases live_cases hs with
  | moves | takes | encodes => rfl
  | captures => cases ha

theorem Live.captured_capture {t t' : Live}
    (hs : (live gst packets).step t (.session (.pacing (.capture true))) = some t') :
    t'.captured = t.captured + 1 := by
  cases live_cases hs with
  | moves _ _ hcaptures => cases hcaptures
  | captures => rfl

theorem housed_init : Housed slots (sharing gst slots packets).init := by
  constructor <;> simp [sharing, live]

theorem Housed.step (h : Housed slots s) (hs : (sharing gst slots packets).step s a = some s') :
    Housed slots s' := by
  cases sharing_cases hs with
  | lives hno _ hlive =>
    have hcaptured := Live.captured_step hno hlive
    refine ⟨?_, ?_, h.older, ?_, ?_, ?_⟩
    all_goals simp only [hcaptured]
    · exact h.captured
    · exact h.first
    · exact h.newer
    · exact h.next
    · exact h.writing
  | attaches _ hfree =>
    refine ⟨h.captured, h.first, h.older, h.newer, nofun, ?_⟩
    intro buffer hbuffer
    rw [Option.mem_some_iff] at hbuffer
    rw [← hbuffer, h.next hfree, Nat.mod_add_mod]
    exact ⟨rfl, rfl⟩
  | @captures slot live' hwriting hlive =>
    have hcaptured := Live.captured_capture hlive
    obtain ⟨hbuffer, hnext⟩ := h.writing _ hwriting
    obtain ⟨-, hslot⟩ := SlotBuffer.mk.inj hbuffer
    have hfirst := h.first
    have hlength := h.captured
    have hage : live'.captured - s.first = s.pipeline.captured - s.first + 1 := by omega
    refine ⟨?_, ?_, ?_, ?_, ?_, nofun⟩
    · simp only [List.length_append, List.length_singleton]
      omega
    · simp only
      omega
    · intro frame hframe home hhome
      have hlt : frame < s.first := hframe
      rw [List.getElem?_append_left (by omega)] at hhome
      exact h.older frame hframe home hhome
    · intro frame hle hlt
      simp only at hlt ⊢
      by_cases hnew : frame = s.pipeline.captured
      · rw [hnew, ← hlength, List.getElem?_concat_length, hslot, hlength]
      · rw [List.getElem?_append_left (by omega)]
        exact h.newer frame hle (by omega)
    · intro _
      simp only [hnext, hage]
  | renews =>
    refine ⟨h.captured, Nat.le_refl _, ?_, ?_, ?_, nofun⟩
    · intro frame hframe home hhome
      by_cases hold : frame < s.first
      · exact Nat.lt_succ_of_lt (h.older frame hold home hhome)
      · rw [h.newer frame (Nat.le_of_not_lt hold) hframe, Option.mem_some_iff] at hhome
        rw [← hhome]
        exact Nat.lt_succ_self _
    · intro frame hle hlt
      exact absurd hlt (Nat.not_lt.2 hle)
    · intro _
      rw [Nat.sub_self, Nat.zero_mod]
  | converts => exact ⟨h.captured, h.first, h.older, h.newer, h.next, h.writing⟩

/-! ## What is written to -/

/-- A frame's buffer is written to just when whole rounds of the pool's slots lie between. -/
theorem Housed.written_iff (h : Housed slots s) {frame : Nat}
    (hframe : frame < s.pipeline.captured) :
    (∃ buffer ∈ s.writing, s.homes[frame]? = some buffer) ↔
      s.writing ≠ none ∧ s.first ≤ frame ∧ slots ∣ s.pipeline.captured - frame := by
  constructor
  · rintro ⟨buffer, hwriting, hhome⟩
    obtain ⟨rfl, -⟩ := h.writing buffer hwriting
    have hle : s.first ≤ frame := by
      apply Nat.le_of_not_lt
      intro hlt
      exact Nat.lt_irrefl _ (h.older frame hlt _ hhome)
    refine ⟨Option.ne_none_iff_exists'.2 ⟨_, hwriting⟩, hle, ?_⟩
    rw [h.newer frame hle hframe, Option.some.injEq, SlotBuffer.mk.injEq] at hhome
    have hmod := Nat.sub_mod_eq_zero_of_mod_eq hhome.2.symm
    have hage : s.pipeline.captured - s.first - (frame - s.first) =
        s.pipeline.captured - frame := by omega
    rw [hage] at hmod
    exact Nat.dvd_of_mod_eq_zero hmod
  · rintro ⟨hwriting, hle, rounds, hrounds⟩
    obtain ⟨buffer, hbuffer⟩ := Option.ne_none_iff_exists'.1 hwriting
    refine ⟨buffer, hbuffer, ?_⟩
    obtain ⟨rfl, -⟩ := h.writing buffer hbuffer
    have hage : s.pipeline.captured - s.first = frame - s.first + slots * rounds := by omega
    rw [h.newer frame hle hframe, hage, Nat.add_mul_mod_self_left]

/-! ## The pipeline inside -/

theorem Sharing.Lives.step (h : s.Lives gst packets)
    (hs : (sharing gst slots packets).step s a = some s') : s'.Lives gst packets := by
  obtain ⟨inner, hinner⟩ := h
  have hnext : ∀ {b live'}, (live gst packets).step s.pipeline b = some live' →
      ∃ inner, (live gst packets).run inner = some live' := by
    intro b live' hb
    refine ⟨inner ++ [b], (live gst packets).runFrom_append.2 ⟨s.pipeline, hinner, ?_⟩⟩
    exact (live gst packets).runFrom_cons.2 ⟨live', hb, rfl⟩
  cases sharing_cases hs with
  | lives _ _ hlive => exact hnext hlive
  | captures _ hlive => exact hnext hlive
  | attaches | renews | converts => exact ⟨inner, hinner⟩

theorem sharing_run {actions : List SharingAction}
    (hrun : (sharing gst slots packets).run actions = some s) :
    Housed slots s ∧ s.Lives gst packets :=
  (sharing gst slots packets).run_invariant (I := fun s => Housed slots s ∧ s.Lives gst packets)
    ⟨housed_init, [], rfl⟩ (fun _ _ _ h hs => ⟨h.1.step hs, h.2.step hs⟩) hrun

end

/-! ## The capture in front -/

section
variable {gst : Gst} {slots : Nat} {packets : Nat → EncodedPacket} {s : Sharing}

theorem step_taken (hpacing : s.pipeline.session.pacing = .capturing) (hfree : s.writing = none) :
    (sharing gst slots packets).step s (.slot (.taken s.nextBuffer)) = some { s with
      writing := some ⟨s.pool, s.nextBuffer⟩, nextBuffer := (s.nextBuffer + 1) % slots } := by
  simp only [sharing]
  exact if_pos ⟨hpacing, hfree, trivial⟩

theorem step_returned {slot : Nat} (hpacing : s.pipeline.session.pacing = .capturing)
    (hwriting : s.writing = some ⟨s.pool, slot⟩) :
    (sharing gst slots packets).step s (.slot (.returned slot)) = some { s with
      pipeline := { s.pipeline.pushed with
        session := { s.pipeline.session with pacing := .audio } }
      writing := none, homes := s.homes ++ [⟨s.pool, slot⟩] } := by
  simp only [sharing, if_pos hwriting]
  simp [live, Action.encodes, Action.captures, streaming, Session.pace, hpacing, push_eq]

theorem step_fails (hpacing : s.pipeline.session.pacing = .capturing) :
    (sharing gst slots packets).step s (.live (.session (.pacing (.capture false)))) =
      some { s with pipeline.session := s.pipeline.session.finish } := by
  simp [sharing, LiveAction.captures, Sharing.mustConvert, Sharing.readingAfter, live,
    Action.encodes, Action.captures, streaming, Session.pace, hpacing]

theorem step_takes {frame : Nat} {appsrc : List Nat} (hreading : s.reading = false)
    (happsrc : s.pipeline.appsrc = frame :: appsrc)
    (hroom : s.pipeline.encoding.length < gst.room) :
    (sharing gst slots packets).step s (.live .takes) = some { s with
      pipeline := { s.pipeline with encoding := s.pipeline.encoding ++ [frame], appsrc }
      reading := true } := by
  simp [sharing, LiveAction.captures, Sharing.mustConvert, Sharing.readingAfter, live, hreading,
    happsrc, hroom]

/-- A capture that stands before the pipeline: the pacing loop is about to capture, and the next
slot is the capture's. -/
structure Faces (s : Sharing) (c : Capture) : Prop where
  pacing : s.pipeline.session.pacing = .capturing
  free : s.writing = none
  next : s.nextBuffer = c.nextBuffer

/-- The frame that was captured is in the slot of its timing. -/
structure Handed (s : Sharing) (c : Capture) (timing : FrameTiming) : Prop where
  pacing : s.pipeline.session.pacing = .audio
  free : s.writing = none
  next : s.nextBuffer = c.nextBuffer
  home : s.homes.getLast? = some ⟨s.pool, timing.bufferIndex⟩

variable {c c' : Capture}

variable (packets) in
/-- A try's slots, step by step: the frame is handed over, or the loop still captures. -/
theorem Faces.run_try (h : Faces s c) (hc : c.Rotating slots) {turns : List Turn}
    {r : Except CaptureError FrameTiming} (htried : Tried c turns (some (r, c'))) :
    ∃ t, (sharing gst slots packets).runFrom s ((c.logTry turns).map .slot) = some t ∧
      (∀ timing, r = .ok timing → Handed t c' timing) ∧
      ∀ e, r = .error e → t.pipeline.session.pacing = .capturing ∧
        (e = .bufferConstraints → t.writing ≠ none) := by
  have hlength : c.buffers ≠ [] → c.buffers.length = slots := fun hbuffers =>
    (hc.slots.resolve_left hbuffers).1
  cases htried with
  | refused hlog hretry =>
    rw [hlog]
    refine ⟨s, rfl, nofun, ?_⟩
    intro e he
    cases he
    exact ⟨h.pacing, fun heq => absurd heq hretry⟩
  | failed hbuffers hlog =>
    rw [hlog, ← h.next]
    refine ⟨_, (sharing gst slots packets).runFrom_cons.2 ⟨_, step_taken h.pacing h.free, rfl⟩,
      nofun, ?_⟩
    intro e _
    exact ⟨h.pacing, fun _ => Option.some_ne_none _⟩
  | captured hbuffers hslot hlog =>
    rw [hlog, ← h.next]
    refine ⟨_, (sharing gst slots packets).runFrom_cons.2 ⟨_, step_taken h.pacing h.free,
      (sharing gst slots packets).runFrom_cons.2 ⟨_, step_returned h.pacing rfl, rfl⟩⟩, ?_, nofun⟩
    intro timing htiming
    cases htiming
    refine ⟨rfl, rfl, ?_, ?_⟩
    · simp only [h.next, hlength hbuffers]
    · simp only [List.getLast?_concat, hslot, h.next]

/-- A new pool, if it comes to one. -/
theorem logRenegotiate_cases {turns : List Turn} {answers : PoolAnswers}
    {r : Except CaptureError Unit} (h : c.renegotiate turns answers = some (r, c')) :
    (c.logRenegotiate turns answers = [.renewed] ∧ c'.nextBuffer = 0) ∨
      (c.logRenegotiate turns answers = [] ∧ ∃ e, r = .error e) := by
  unfold Capture.renegotiate at h
  unfold Capture.logRenegotiate
  split at h
  · cases h
  · next hwait => cases h; exact .inr ⟨by rw [hwait], _, rfl⟩
  · next state hwait =>
    split at h
    · next halloc => cases h; exact .inr ⟨by simp only [hwait, halloc], _, rfl⟩
    · next c₁ halloc =>
      have hnext := (Capture.allocatePool_ok halloc).nextBuffer
      refine .inl ⟨by simp only [hwait, halloc], ?_⟩
      split at h <;> (cases h; exact hnext)

/-- What the pacing loop does about an error. -/
def afterCapture : Except CaptureError FrameTiming → List SharingAction
  | .ok _ => []
  | .error _ => [.live (.session (.pacing (.capture false)))]

variable (gst slots packets) in
theorem run_afterCapture (hpacing : s.pipeline.session.pacing = .capturing) (e : CaptureError) :
    ∃ t, (sharing gst slots packets).runFrom s (afterCapture (.error e)) = some t ∧
      t.pipeline.session.pacing = .ended :=
  ⟨_, (sharing gst slots packets).runFrom_cons.2 ⟨_, step_fails hpacing, rfl⟩, rfl⟩

variable (gst slots packets) in
theorem run_renewed (hpacing : s.pipeline.session.pacing = .capturing) (hwriting : s.writing ≠ none)
    (hnext : c.nextBuffer = 0) : ∃ t,
      (sharing gst slots packets).runFrom s [.slot .renewed] = some t ∧ Faces t c := by
  refine ⟨{ s with
    pool := s.pool + 1, first := s.pipeline.captured, nextBuffer := 0, writing := none },
    (sharing gst slots packets).runFrom_cons.2 ⟨_, ?_, rfl⟩, hpacing, rfl, hnext.symm⟩
  simp only [sharing]
  exact if_neg hwriting

/-- **Refinement.** A `capture_frame` call and what the pacing loop makes of it is a run of the
slots in front of the pipeline. -/
theorem Faces.run_frame (h : Faces s c) (hn : 0 < slots) (hc : c.Rotating slots)
    {script : FrameScript} {r : Except CaptureError FrameTiming}
    (hframe : c.captureFrame script = some (r, c')) :
    ∃ t, (sharing gst slots packets).runFrom s ((c.logFrame script).map .slot ++ afterCapture r) =
        some t ∧
      (∀ timing, r = .ok timing → Handed t c' timing) ∧
      ∀ e, r = .error e → t.pipeline.session.pacing = .ended := by
  have hfirst_tried := c.tryCaptureFrame_tried script.first
  -- what is left to do behind the last try
  have hends : ∀ {t : Sharing} {r : Except CaptureError FrameTiming},
      (∀ timing, r = .ok timing → Handed t c' timing) →
      (∀ e, r = .error e → t.pipeline.session.pacing = .capturing) →
      ∃ u, (sharing gst slots packets).runFrom t (afterCapture r) = some u ∧
        (∀ timing, r = .ok timing → Handed u c' timing) ∧
        ∀ e, r = .error e → u.pipeline.session.pacing = .ended := by
    intro t r hok herror
    cases r with
    | ok timing => exact ⟨t, rfl, hok, nofun⟩
    | error e =>
      obtain ⟨u, hu, hended⟩ := run_afterCapture gst slots packets (herror e rfl) e
      exact ⟨u, hu, nofun, fun _ _ => hended⟩
  cases Capture.captureFrame_returns hframe with
  | once hfirst hlog =>
    rw [hfirst] at hfirst_tried
    obtain ⟨t, ht, hok, herror⟩ := h.run_try packets hc hfirst_tried
    obtain ⟨u, hu, hout⟩ := hends hok fun e he => (herror e he).1
    rw [hlog]
    exact ⟨u, (sharing gst slots packets).runFrom_append.2 ⟨t, ht, hu⟩, hout⟩
  | @refused e c₁ _ hfirst hre =>
    rw [hfirst] at hfirst_tried
    obtain ⟨t, ht, -, herror⟩ := h.run_try packets hc hfirst_tried
    obtain ⟨hpacing, hwriting⟩ := herror _ rfl
    have hlog : c.logFrame script =
        c.logTry script.first ++ c₁.logRenegotiate script.constraints script.pool := by
      rw [Capture.logFrame, hfirst]
      simp only [hre, List.append_nil]
    have hlast : ∃ u, (sharing gst slots packets).runFrom t
        ((c₁.logRenegotiate script.constraints script.pool).map .slot) = some u ∧
        u.pipeline.session.pacing = .capturing := by
      rcases logRenegotiate_cases hre with ⟨hrenewed, hnext⟩ | ⟨hnone, -⟩
      · rw [hrenewed]
        obtain ⟨u, hu, hfaces⟩ := run_renewed gst slots packets hpacing (hwriting rfl) hnext
        exact ⟨u, hu, hfaces.pacing⟩
      · rw [hnone]
        exact ⟨t, rfl, hpacing⟩
    obtain ⟨u, hu, hcapturing⟩ := hlast
    obtain ⟨v, hv, hended⟩ := run_afterCapture gst slots packets hcapturing e
    refine ⟨v, ?_, nofun, fun _ _ => hended⟩
    rw [hlog, List.map_append, List.append_assoc]
    exact (sharing gst slots packets).runFrom_append.2
      ⟨t, ht, (sharing gst slots packets).runFrom_append.2 ⟨u, hu, hv⟩⟩
  | @twice r c₁ c₂ _ hfirst hre hsecond hlog =>
    rw [hfirst] at hfirst_tried
    obtain ⟨t, ht, -, herror⟩ := h.run_try packets hc hfirst_tried
    obtain ⟨hpacing, hwriting⟩ := herror _ rfl
    rcases logRenegotiate_cases hre with ⟨hrenewed, hnext⟩ | ⟨-, e, he⟩
    · obtain ⟨u, hu, hfaces⟩ := run_renewed gst slots packets hpacing (hwriting rfl) hnext
      have hc₂ := Capture.renegotiate_rotating hn (hfirst_tried.rotating hn hc) hre
      have hsecond_tried := c₂.tryCaptureFrame_tried script.second
      rw [hsecond] at hsecond_tried
      obtain ⟨v, hv, hok, herror⟩ := hfaces.run_try packets hc₂ hsecond_tried
      obtain ⟨w, hw, hout⟩ := hends hok fun e he => (herror e he).1
      refine ⟨w, ?_, hout⟩
      rw [hlog, hrenewed, List.map_append, List.map_append, List.append_assoc, List.append_assoc]
      exact (sharing gst slots packets).runFrom_append.2 ⟨t, ht,
        (sharing gst slots packets).runFrom_append.2 ⟨u, hu,
          (sharing gst slots packets).runFrom_append.2 ⟨v, hv, hw⟩⟩⟩
    · cases he

end

/-! ## A frame that is torn -/

/-- Between two rounds of the pacing loop. -/
structure Idle (s : Sharing) : Prop where
  pacing : s.pipeline.session.pacing = .checking
  video : s.pipeline.session.video.channel = []
  audio : s.pipeline.session.audio.channel = []
  free : s.writing = none

/-- What a round that is busy with captures alone does not touch. -/
structure Unread (s t : Sharing) : Prop where
  encoding : t.pipeline.encoding = s.pipeline.encoding
  reading : t.reading = s.reading
  first : t.first = s.first

section
variable {gst : Gst} {slots : Nat} {packets : Nat → EncodedPacket} {s : Sharing}

/-- A step of the pacing loop that captures nothing. -/
theorem step_pacing {a : PacingAction} {session : Session}
    (ha : (Action.pacing a).captures = false) (hs : s.pipeline.session.pace a = some session) :
    (sharing gst slots packets).step s (.live (.session (.pacing a))) =
      some { s with pipeline.session := session } := by
  simp [sharing, LiveAction.captures, Sharing.mustConvert, Sharing.readingAfter, live,
    Action.encodes, streaming, ha, hs]

/-- The rest of a round in which there is nothing to send. -/
theorem run_quiet (hpacing : s.pipeline.session.pacing = .audio)
    (hvideo : s.pipeline.session.video.channel = [])
    (haudio : s.pipeline.session.audio.channel = []) :
    (sharing gst slots packets).runFrom s ([.receive, .receive, .sleep].map fun a =>
        .live (.session (.pacing a))) = some { s with
      pipeline.session := { s.pipeline.session with pacing := .checking } } := by
  have hnoAudio : s.pipeline.session.pace .receive =
      some { s.pipeline.session with pacing := .video } := by
    simp only [Session.pace, hpacing, haudio]
  have hnoVideo : ({ s.pipeline.session with pacing := .video } : Session).pace .receive =
      some { s.pipeline.session with pacing := .sleeping } := by
    simp only [Session.pace, hvideo]
  have hsleep : ({ s.pipeline.session with pacing := .sleeping } : Session).pace .sleep =
      some { s.pipeline.session with pacing := .checking } := rfl
  refine (sharing gst slots packets).runFrom_cons.2 ⟨_, step_pacing rfl hnoAudio, ?_⟩
  refine (sharing gst slots packets).runFrom_cons.2 ⟨_, step_pacing rfl hnoVideo, ?_⟩
  exact (sharing gst slots packets).runFrom_cons.2 ⟨_, step_pacing rfl hsleep, rfl⟩

variable (gst slots packets) in
/-- The next slot is attached. -/
theorem exists_attached (h : Idle s) : ∃ more t,
    (sharing gst slots packets).runFrom s more = some t ∧ t = { s with
      pipeline.session := { s.pipeline.session with pacing := .capturing }
      writing := some ⟨s.pool, s.nextBuffer⟩, nextBuffer := (s.nextBuffer + 1) % slots } := by
  have hcheck : s.pipeline.session.pace (.check false) =
      some { s.pipeline.session with pacing := .capturing } := by
    simp only [Session.pace, h.pacing, Bool.false_eq_true, if_false]
  refine ⟨[.live (.session (.pacing (.check false))), .slot (.taken s.nextBuffer)], _, ?_, rfl⟩
  refine (sharing gst slots packets).runFrom_cons.2 ⟨_, step_pacing rfl hcheck, ?_⟩
  exact (sharing gst slots packets).runFrom_cons.2 ⟨_, step_taken rfl h.free, rfl⟩

variable (gst slots packets) in
theorem exists_round (h : Idle s) : ∃ more t, (sharing gst slots packets).runFrom s more = some t ∧
    Idle t ∧ Unread s t ∧ t.pipeline.captured = s.pipeline.captured + 1 ∧
    t.pipeline.appsrc = pushNewest 1 s.pipeline.appsrc s.pipeline.captured := by
  obtain ⟨attach, t, ht, rfl⟩ := exists_attached gst slots packets h
  refine ⟨attach ++ .slot (.returned s.nextBuffer) :: _, _,
    (sharing gst slots packets).runFrom_append.2 ⟨_, ht,
      (sharing gst slots packets).runFrom_cons.2
        ⟨_, step_returned rfl rfl, run_quiet rfl ?_ ?_⟩⟩, ?_⟩
  · exact h.video
  · exact h.audio
  · exact ⟨⟨rfl, h.video, h.audio, rfl⟩, ⟨rfl, rfl, rfl⟩, rfl, rfl⟩

variable (gst slots packets) in
theorem exists_rounds (h : Idle s) (n : Nat) : ∃ more t,
    (sharing gst slots packets).runFrom s more = some t ∧ Idle t ∧ Unread s t ∧
      t.pipeline.captured = s.pipeline.captured + n := by
  induction n with
  | zero => exact ⟨[], s, rfl, h, ⟨rfl, rfl, rfl⟩, rfl⟩
  | succ n ih =>
    obtain ⟨more, t, ht, hidle, hunread, hcaptured⟩ := ih
    obtain ⟨again, u, hu, hidle', hunread', hcaptured', -⟩ := exists_round gst slots packets hidle
    refine ⟨more ++ again, u, (sharing gst slots packets).runFrom_append.2 ⟨t, ht, hu⟩, hidle',
      ?_, ?_⟩
    · exact ⟨hunread'.encoding.trans hunread.encoding, hunread'.reading.trans hunread.reading,
        hunread'.first.trans hunread.first⟩
    · rw [hcaptured', hcaptured, Nat.add_assoc]

variable (packets) in
/-- The thread takes the first frame and reads until the capture has come round to its slot. -/
theorem exists_torn (hroom : 0 < gst.room) (hslots : 0 < slots) : ∃ actions s,
    (sharing gst slots packets).run actions = some s ∧ s.Torn ∧ s.pipeline.captured = slots := by
  have hinit : Idle (sharing gst slots packets).init := ⟨rfl, rfl, rfl, rfl⟩
  obtain ⟨first, s, hs, hidle, hunread, hcaptured, happsrc⟩ := exists_round gst slots packets hinit
  have htakes := @step_takes gst slots packets s 0 [] hunread.reading happsrc (by
    rw [hunread.encoding]
    exact hroom)
  obtain ⟨more, t, ht, hidle', hunread', hcaptured'⟩ := exists_rounds gst slots packets
    (s := { s with
      pipeline := { s.pipeline with encoding := s.pipeline.encoding ++ [0], appsrc := [] }
      reading := true }) ⟨hidle.pacing, hidle.video, hidle.audio, hidle.free⟩ (slots - 1)
  obtain ⟨attach, u, hu, rfl⟩ := exists_attached gst slots packets hidle'
  have hrun := (sharing gst slots packets).runFrom_append.2 ⟨s, hs,
    (sharing gst slots packets).runFrom_cons.2 ⟨_, htakes,
      (sharing gst slots packets).runFrom_append.2 ⟨t, ht, hu⟩⟩⟩
  have hone : s.pipeline.captured = 1 := hcaptured
  have hage : t.pipeline.captured = slots := by
    rw [hcaptured', hone]
    omega
  refine ⟨_, _, hrun, ⟨hunread'.reading, 0, ?_, ?_⟩, hage⟩
  · simp [hunread'.encoding]
  · refine ((sharing_run hrun).1.written_iff ?_).2 ⟨Option.some_ne_none _, ?_, ?_⟩
    · exact hage.symm ▸ hslots
    · exact Nat.le_of_eq (hunread'.first.trans hunread.first)
    · exact hage.symm ▸ Nat.dvd_refl slots

end

/-- **Torn frames.** Whatever the interleaving of the capture, the pacing loop, the pipeline and all
the others: a frame that waits for the encoder is not written to. The frame that the pipeline's
thread reads is, just when a frame is being captured, their pool is the same one, and whole rounds
of its slots lie between them; and no number of slots rules that out. -/
theorem torn_iff {gst : Gst} {slots : Nat} {packets : Nat → EncodedPacket} (hslots : 1 < slots)
    {actions : List SharingAction} {s : Sharing}
    (hrun : (sharing gst slots packets).run actions = some s) :
    (∀ frame ∈ s.pipeline.appsrc, ∀ buffer ∈ s.writing, s.homes[frame]? ≠ some buffer) ∧
    (s.Torn ↔ s.reading = true ∧ s.writing ≠ none ∧ ∃ frame ∈ s.pipeline.encoding.getLast?,
      s.first ≤ frame ∧ slots ∣ s.pipeline.captured - frame) ∧
    (0 < gst.room →
      ∃ actions t, (sharing gst slots packets).run actions = some t ∧ t.Torn) := by
  obtain ⟨hhoused, inner, hinner⟩ := sharing_run hrun
  have hfresh := fresh_run hinner
  refine ⟨?_, ?_, ?_⟩
  · intro frame hframe buffer hbuffer hhome
    have hnewest := hfresh.waiting_newest hframe
    obtain ⟨-, -, hrounds⟩ := (hhoused.written_iff (by omega)).1 ⟨buffer, hbuffer, hhome⟩
    have hage : s.pipeline.captured - frame = 1 := by omega
    rw [hage, Nat.dvd_one] at hrounds
    omega
  · have hcaptured : ∀ frame ∈ s.pipeline.encoding.getLast?, frame < s.pipeline.captured := by
      intro frame hframe
      apply hfresh.below
      rw [Live.kept]
      exact List.mem_append_left _ (List.mem_append_right _ (List.mem_of_getLast? hframe))
    constructor
    · rintro ⟨hreading, frame, hframe, hwritten⟩
      obtain ⟨hwriting, hrounds⟩ := (hhoused.written_iff (hcaptured frame hframe)).1 hwritten
      exact ⟨hreading, hwriting, frame, hframe, hrounds⟩
    · rintro ⟨hreading, hwriting, frame, hframe, hrounds⟩
      exact ⟨hreading, frame, hframe,
        (hhoused.written_iff (hcaptured frame hframe)).2 ⟨hwriting, hrounds⟩⟩
  · intro hroom
    obtain ⟨more, t, ht, htorn, -⟩ := exists_torn packets hroom (Nat.zero_lt_of_lt hslots)
    exact ⟨more, t, ht, htorn⟩

/-- A round of the pacing loop that captures into a slot. -/
def roundInto (slot : Nat) : List SharingAction :=
  [.live (.session (.pacing (.check false))), .slot (.taken slot), .slot (.returned slot),
    .live (.session (.pacing .receive)), .live (.session (.pacing .receive)),
    .live (.session (.pacing .sleep))]

/-- A thread that reads the first of three slots through three captures. -/
def slowThread : List SharingAction :=
  roundInto 0 ++ [.live .takes] ++ roundInto 1 ++ roundInto 2 ++
    [.live (.session (.pacing (.check false))), .slot (.taken 0)]

theorem torn_iff_slowThread : ∃ s, (sharing (.plain 1) 3 steadyPackets).run slowThread = some s ∧
    s.pipeline.appsrc = [2] ∧
    (∀ frame ∈ s.pipeline.appsrc, ∀ buffer ∈ s.writing, s.homes[frame]? ≠ some buffer) ∧
    s.Torn := by
  obtain ⟨s, hrun, happsrc, hreading, hwriting, hencoding, hfirst, hcaptured⟩ : ∃ s,
      (sharing (.plain 1) 3 steadyPackets).run slowThread = some s ∧ s.pipeline.appsrc = [2] ∧
      s.reading = true ∧ s.writing = some ⟨0, 0⟩ ∧ s.pipeline.encoding = [0] ∧ s.first = 0 ∧
      s.pipeline.captured = 3 := ⟨_, rfl, rfl, rfl, rfl, rfl, rfl, rfl⟩
  obtain ⟨hwaiting, htorn, -⟩ := torn_iff (by decide) hrun
  refine ⟨s, hrun, happsrc, hwaiting, htorn.2 ⟨hreading, ?_, 0, hencoding ▸ rfl, ?_, ?_⟩⟩
  · exact hwriting ▸ Option.some_ne_none _
  · exact Nat.le_of_eq hfirst
  · exact hcaptured ▸ Nat.dvd_refl 3

end PadPlay.Daemon.Streaming
